import Mathlib.Data.List.Chain
import SealedLogin.Proofs.Computations

/-!
# Plans of draws

A computation that draws random bytes is laid out as a plan: which draws it makes, what each is for,
and what comes of the bytes (`Drawing.Follows`). Of a plan it can be said what it has drawn, and
which draw found too few bytes. Whatever the plan is, what was drawn stands at the front of the
stream in the order of the draws (`eq_append_run`), and a plan that lacks nothing comes to the same
on every stream with that front (`append_of_lacking_eq_none`).
-/

namespace SealedLogin

/-- What random bytes are drawn for. -/
inductive Use where
  | signingSeed
  | exchangeSecret
  | nonce
  | initVector
  | token
deriving DecidableEq, Repr

/-- How many bytes are drawn at a time. -/
def Use.length : Use → Nat
  | .signingSeed => 32
  | .exchangeSecret => 32
  | .nonce => 32
  | .initVector => 16
  | .token => 64

/-- Bytes that were drawn, with what they were drawn for. -/
abbrev Drawn := Use × Bytes

/-- A computation as the draws it makes one after another. -/
inductive Plan (ω : Type) where
  | done (outcome : ω)
  | draw (use : Use) (next : Bytes → Plan ω)

namespace Plan

variable {ε ω υ α β : Type}

/-- What comes of a plan, and what is left of the stream. A draw that finds too few bytes takes none
and ends the plan with the outcome `short`. -/
def run (short : ω) : Plan ω → Entropy → ω × Entropy
  | .done outcome, left => (outcome, left)
  | .draw use next, left =>
      if use.length ≤ left.length then
        (next (left.take use.length)).run short (left.drop use.length)
      else (short, left)

/-- What a plan draws, in order. -/
def drawn : Plan ω → Entropy → List Drawn
  | .done _, _ => []
  | .draw use next, left =>
      if use.length ≤ left.length then
        (use, left.take use.length) :: (next (left.take use.length)).drawn (left.drop use.length)
      else []

/-- The draw of a plan that finds too few bytes. -/
def lacking : Plan ω → Entropy → Option Use
  | .done _, _ => none
  | .draw use next, left =>
      if use.length ≤ left.length then
        (next (left.take use.length)).lacking (left.drop use.length)
      else some use

/-- The plan with its outcome put in another form. -/
def map (f : ω → υ) : Plan ω → Plan υ
  | .done outcome => .done (f outcome)
  | .draw use next => .draw use fun b => (next b).map f

/-- A plan that goes on with the result of another one, unless that failed. -/
def andThen : Plan (Except ε α) → (α → Plan (Except ε β)) → Plan (Except ε β)
  | .done (.ok a), next => next a
  | .done (.error e), _ => .done (.error e)
  | .draw use rest, next => .draw use fun b => (rest b).andThen next

/-- The bytes that were drawn, one after another. -/
def bytesOf (ds : List Drawn) : Bytes := ds.flatMap (·.2)

@[simp] theorem bytesOf_nil : bytesOf [] = [] := rfl

@[simp] theorem bytesOf_cons (d : Drawn) (ds : List Drawn) :
    bytesOf (d :: ds) = d.2 ++ bytesOf ds := rfl

@[simp] theorem bytesOf_append (ds es : List Drawn) :
    bytesOf (ds ++ es) = bytesOf ds ++ bytesOf es := List.flatMap_append

/-! ### A single draw -/

theorem exists_append_of_le {n : Nat} {left : Entropy} (h : n ≤ left.length) :
    ∃ b rest, left = b ++ rest ∧ b.length = n :=
  ⟨left.take n, left.drop n, (List.take_append_drop n left).symm, List.length_take_of_le h⟩

section

variable {use : Use} {next : Bytes → Plan ω} {b rest left : Entropy}

theorem run_draw (short : ω) (h : b.length = use.length) :
    (draw use next).run short (b ++ rest) = (next b).run short rest := by
  rw [run, if_pos (by rw [List.length_append]; omega), List.take_left' h, List.drop_left' h]

theorem drawn_draw (h : b.length = use.length) :
    (draw use next).drawn (b ++ rest) = (use, b) :: (next b).drawn rest := by
  rw [drawn, if_pos (by rw [List.length_append]; omega), List.take_left' h, List.drop_left' h]

theorem lacking_draw (h : b.length = use.length) :
    (draw use next).lacking (b ++ rest) = (next b).lacking rest := by
  rw [lacking, if_pos (by rw [List.length_append]; omega), List.take_left' h, List.drop_left' h]

theorem le_of_lacking_eq_none (h : (draw use next).lacking left = none) :
    use.length ≤ left.length := by
  rw [lacking] at h
  split at h
  · assumption
  · cases h

end

/-! ### What is drawn -/

section

variable {p : Plan ω} {short : ω} {left : Entropy}

/-- What was drawn stands at the front of the stream, in the order of the draws. -/
theorem eq_append_run (short : ω) (p : Plan ω) (left : Entropy) :
    left = bytesOf (p.drawn left) ++ (p.run short left).2 := by
  induction p generalizing left with
  | done => rfl
  | draw use next ih =>
    by_cases hle : use.length ≤ left.length
    · obtain ⟨b, rest, rfl, hb⟩ := exists_append_of_le hle
      rw [drawn_draw hb, run_draw short hb, bytesOf_cons, List.append_assoc, ← ih b rest]
    · rw [drawn, run, if_neg hle, if_neg hle]
      rfl

/-- Every draw gets all the bytes it asks for. -/
theorem length_of_mem_drawn {d : Drawn} (h : d ∈ p.drawn left) : d.2.length = d.1.length := by
  induction p generalizing left with
  | done => cases h
  | draw use next ih =>
    by_cases hle : use.length ≤ left.length
    · obtain ⟨b, rest, rfl, hb⟩ := exists_append_of_le hle
      rw [drawn_draw hb] at h
      rcases List.mem_cons.1 h with rfl | h
      · exact hb
      · exact ih b h
    · rw [drawn, if_neg hle] at h
      cases h

/-- The draw that finds too few bytes takes none of them, and ends the plan. -/
theorem run_of_lacking (short : ω) {use : Use} (h : p.lacking left = some use) :
    (p.run short left).1 = short ∧ (p.run short left).2.length < use.length := by
  induction p generalizing left with
  | done => cases h
  | draw other next ih =>
    by_cases hle : other.length ≤ left.length
    · obtain ⟨b, rest, rfl, hb⟩ := exists_append_of_le hle
      rw [lacking_draw hb] at h
      rw [run_draw short hb]
      exact ih b h
    · rw [lacking, if_neg hle] at h
      cases h
      rw [run, if_neg hle]
      exact ⟨rfl, Nat.lt_of_not_le hle⟩

/-- A plan that lacks nothing does the same whatever stands behind what it draws. -/
theorem append_of_lacking_eq_none (short : ω) (h : p.lacking left = none) (more : Entropy) :
    p.run short (bytesOf (p.drawn left) ++ more) = ((p.run short left).1, more)
      ∧ p.drawn (bytesOf (p.drawn left) ++ more) = p.drawn left
      ∧ p.lacking (bytesOf (p.drawn left) ++ more) = none := by
  induction p generalizing left with
  | done => exact ⟨rfl, rfl, rfl⟩
  | draw use next ih =>
    obtain ⟨b, rest, rfl, hb⟩ := exists_append_of_le (le_of_lacking_eq_none h)
    rw [lacking_draw hb] at h
    obtain ⟨hrun, hdrawn, hlacking⟩ := ih b h
    rw [drawn_draw hb, bytesOf_cons, List.append_assoc, run_draw short hb, run_draw short hb,
      drawn_draw hb, lacking_draw hb, hdrawn]
    exact ⟨hrun, rfl, hlacking⟩

theorem run_map (f : ω → υ) : (p.map f).run (f short) left
    = (f (p.run short left).1, (p.run short left).2) := by
  induction p generalizing left with
  | done => rfl
  | draw use next ih =>
    rw [map, run, run]
    split
    · exact ih _
    · rfl

end

/-! ### What a plan may come to -/

/-- A plan comes to an outcome when it is given the bytes that it draws. -/
inductive Yields : Plan ω → List Drawn → ω → Prop where
  | done (outcome : ω) : Yields (.done outcome) [] outcome
  | draw {use : Use} {next : Bytes → Plan ω} {b : Bytes} {ds : List Drawn} {outcome : ω}
      (h : Yields (next b) ds outcome) : Yields (.draw use next) ((use, b) :: ds) outcome

theorem yields_of_lacking_eq_none {p : Plan ω} {left : Entropy} (short : ω)
    (h : p.lacking left = none) : p.Yields (p.drawn left) (p.run short left).1 := by
  induction p generalizing left with
  | done outcome => exact .done outcome
  | draw use next ih =>
    obtain ⟨b, rest, rfl, hb⟩ := exists_append_of_le (le_of_lacking_eq_none h)
    rw [lacking_draw hb] at h
    rw [drawn_draw hb, run_draw short hb]
    exact .draw (ih b h)

theorem yields_done_iff {outcome outcome' : ω} {ds : List Drawn} :
    (done outcome).Yields ds outcome' ↔ outcome' = outcome ∧ ds = [] := by
  constructor
  · intro h
    cases h
    exact ⟨rfl, rfl⟩
  · rintro ⟨rfl, rfl⟩
    exact .done _

theorem yields_draw_iff {use : Use} {next : Bytes → Plan ω} {outcome : ω} {ds : List Drawn} :
    (draw use next).Yields ds outcome ↔
      ∃ b rest, ds = (use, b) :: rest ∧ (next b).Yields rest outcome := by
  constructor
  · intro h
    cases h with
    | draw h => exact ⟨_, _, rfl, h⟩
  · rintro ⟨b, rest, rfl, h⟩
    exact .draw h

theorem yields_map_iff {p : Plan ω} {f : ω → υ} {ds : List Drawn} {outcome : υ} :
    (p.map f).Yields ds outcome ↔ ∃ a, p.Yields ds a ∧ outcome = f a := by
  induction p generalizing ds with
  | done a =>
    rw [map, yields_done_iff]
    simp only [yields_done_iff]
    constructor
    · rintro ⟨rfl, rfl⟩
      exact ⟨a, ⟨rfl, rfl⟩, rfl⟩
    · rintro ⟨_, ⟨rfl, rfl⟩, rfl⟩
      exact ⟨rfl, rfl⟩
  | draw use next ih =>
    simp only [map, yields_draw_iff, ih]
    constructor
    · rintro ⟨b, rest, rfl, a, h, rfl⟩
      exact ⟨a, ⟨b, rest, rfl, h⟩, rfl⟩
    · rintro ⟨a, ⟨b, rest, rfl, h⟩, rfl⟩
      exact ⟨b, rest, rfl, a, h, rfl⟩

theorem yields_andThen_iff {p : Plan (Except ε α)} {q : α → Plan (Except ε β)} {ds : List Drawn}
    {b : β} : (p.andThen q).Yields ds (.ok b) ↔
      ∃ a front back, p.Yields front (.ok a) ∧ (q a).Yields back (.ok b)
        ∧ ds = front ++ back := by
  induction p generalizing ds with
  | done outcome =>
    simp only [yields_done_iff]
    cases outcome with
    | ok a =>
      constructor
      · intro h
        exact ⟨a, [], ds, ⟨rfl, rfl⟩, h, rfl⟩
      · rintro ⟨_, _, _, ⟨h, rfl⟩, hq, rfl⟩
        cases h
        exact hq
    | error e =>
      constructor
      · intro h
        cases h
      · rintro ⟨_, _, _, ⟨h, -⟩, -⟩
        cases h
  | draw use next ih =>
    simp only [andThen, yields_draw_iff, ih]
    constructor
    · rintro ⟨bytes, rest, rfl, a, front, back, h, hq, rfl⟩
      exact ⟨a, _, back, ⟨bytes, front, rfl, h⟩, hq, rfl⟩
    · rintro ⟨a, _, back, ⟨bytes, front, rfl, h⟩, hq, rfl⟩
      exact ⟨bytes, _, rfl, a, front, back, h, hq, rfl⟩

/-- A check stands before the rest of a plan and draws nothing. -/
theorem yields_check_iff {x : Except ε α} {q : α → Plan (Except ε β)} {ds : List Drawn} {b : β} :
    ((done x).andThen q).Yields ds (.ok b) ↔ ∃ a, x = .ok a ∧ (q a).Yields ds (.ok b) := by
  rw [yields_andThen_iff]
  constructor
  · rintro ⟨a, _, _, hx, h, rfl⟩
    obtain ⟨rfl, rfl⟩ := yields_done_iff.1 hx
    exact ⟨a, rfl, h⟩
  · rintro ⟨a, rfl, h⟩
    exact ⟨a, [], ds, .done _, h, rfl⟩

/-- A last step that only puts a result together draws nothing. -/
theorem yields_andThen_done_iff {p : Plan (Except ε α)} {f : α → β} {ds : List Drawn} {b : β} :
    (p.andThen fun a => done (.ok (f a))).Yields ds (.ok b) ↔
      ∃ a, p.Yields ds (.ok a) ∧ b = f a := by
  rw [yields_andThen_iff]
  constructor
  · rintro ⟨a, _, _, hp, h, rfl⟩
    obtain ⟨h, rfl⟩ := yields_done_iff.1 h
    cases h
    rw [List.append_nil]
    exact ⟨a, hp, rfl⟩
  · rintro ⟨a, hp, rfl⟩
    exact ⟨a, ds, [], hp, .done _, (List.append_nil ds).symm⟩

end Plan

/-! ### Computations that follow a plan -/

namespace Drawing

variable {ε δ α β : Type} {short : ε}

/-- On every stream the computation comes to what the plan comes to, where a draw that finds too few
bytes fails with `short`. -/
def Follows (short : ε) (d : Drawing ε α) (p : Plan (Except ε α)) : Prop :=
  ∀ left, d left = p.run (.error short) left

theorem follows_pure (a : α) : Follows short (pure a) (.done (.ok a)) := fun _ => rfl

theorem follows_ofExcept (x : Except ε α) : Follows short (Drawing.ofExcept x) (.done x) :=
  fun _ => rfl

theorem Follows.bind {d : Drawing ε α} {f : α → Drawing ε β} {p : Plan (Except ε α)}
    {q : α → Plan (Except ε β)} (h : Follows short d p) (hf : ∀ a, Follows short (f a) (q a)) :
    Follows short (d >>= f) (p.andThen q) := by
  intro left
  rw [bind_apply, h left]
  clear h
  induction p generalizing left with
  | done outcome =>
    cases outcome with
    | ok a => exact hf a left
    | error e => rfl
  | draw use next ih =>
    rw [Plan.andThen]
    by_cases hle : use.length ≤ left.length
    · rw [Plan.run, Plan.run, if_pos hle, if_pos hle]
      exact ih _ _
    · rw [Plan.run, Plan.run, if_neg hle, if_neg hle]

theorem Follows.adapt {d : Drawing ε α} {p : Plan (Except ε α)} (h : Follows short d p)
    (f : ε → δ) : Follows (f short) (ExceptT.adapt f d) (p.map (Except.mapError f)) := by
  intro left
  rw [adapt_apply, h left]
  exact (Plan.run_map (Except.mapError f)).symm

theorem follows_draw (use : Use) : Follows Entropy.Fault.exhausted (Entropy.draw use.length)
    (.draw use fun b => .done (.ok b)) := by
  intro left
  rw [Entropy.draw, Plan.run]
  rfl

theorem follows_drawKeyBytes (use : Use) : Follows (CryptoError.randomUnavailable .exhausted)
    (Entropy.drawKeyBytes use.length) (.draw use fun b => .done (.ok b)) :=
  (follows_draw use).adapt CryptoError.randomUnavailable

end Drawing

/-! ### Places in the stream -/

/-- Bytes that were drawn, with their place in the stream. -/
structure Segment where
  use : Use
  start : Nat
  bytes : Bytes

/-- The place behind a segment. -/
def Segment.stop (x : Segment) : Nat := x.start + x.bytes.length

/-- What was drawn, from a place in the stream on. -/
def segmentsFrom : Nat → List Drawn → List Segment
  | _, [] => []
  | start, d :: ds => ⟨d.1, start, d.2⟩ :: segmentsFrom (start + d.2.length) ds

theorem map_segmentsFrom (start : Nat) (ds : List Drawn) :
    (segmentsFrom start ds).map (fun x => (x.use, x.bytes)) = ds := by
  induction ds generalizing start with
  | nil => rfl
  | cons d ds ih => rw [segmentsFrom, List.map_cons, ih]

theorem start_le_of_mem {start : Nat} {ds : List Drawn} {x : Segment}
    (h : x ∈ segmentsFrom start ds) : start ≤ x.start := by
  induction ds generalizing start with
  | nil => cases h
  | cons d ds ih =>
    rcases List.mem_cons.1 h with rfl | h
    · exact Nat.le_refl _
    · exact Nat.le_trans (Nat.le_add_right _ _) (ih h)

theorem pairwise_segmentsFrom (start : Nat) (ds : List Drawn) :
    (segmentsFrom start ds).Pairwise fun x y => x.stop ≤ y.start := by
  induction ds generalizing start with
  | nil => exact .nil
  | cons d ds ih => exact .cons (fun y hy => start_le_of_mem hy) (ih _)

theorem isChain_segmentsFrom (start : Nat) (ds : List Drawn) :
    (segmentsFrom start ds).IsChain fun x y => x.stop = y.start := by
  induction ds generalizing start with
  | nil => exact .nil
  | cons d ds ih =>
    cases ds with
    | nil => exact .singleton _
    | cons e ds => exact .cons_cons rfl (ih _)

/-- A segment is what stands in its place. -/
theorem bytes_of_mem {front rest : Bytes} {ds : List Drawn} {x : Segment}
    (h : x ∈ segmentsFrom front.length ds) :
    x.bytes = ((front ++ Plan.bytesOf ds ++ rest).drop x.start).take x.bytes.length := by
  induction ds generalizing front with
  | nil => cases h
  | cons d ds ih =>
    rcases List.mem_cons.1 h with rfl | h
    · rw [Plan.bytesOf_cons, List.append_assoc, List.append_assoc]
      dsimp only
      rw [List.drop_left' rfl, List.take_left' rfl]
    · rw [← List.length_append] at h
      rw [Plan.bytesOf_cons, ← List.append_assoc front]
      exact ih h

end SealedLogin
