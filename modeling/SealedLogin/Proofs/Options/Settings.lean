import Mathlib.Logic.Relation
import SealedLogin.Options
import SealedLogin.Proofs.Computations
import SealedLogin.Proofs.Text.Counts

/-!
# Settings on a command line

The arguments of a command line give a list of settings (`Options.Gives`), in one way at most and in
one way exactly if no flag at their end lacks its value (`exists_gives_iff`). Each length of time is
checked where it stands (`AllTaken`); otherwise an option is settled by its last value
(`Options.Settled`), since later settings of a draft override earlier ones
(`Draft.Turns.append_iff`). So the result depends on the values of each option alone, in their
order, and arguments may be rearranged in any way that keeps these (`Options.Rearranged`).
-/

namespace SealedLogin

/-! ### Flags -/

namespace Flag

variable {flag : Flag} {arg : String}

theorem ofText?_text (flag : Flag) : ofText? flag.text = some flag := by
  cases flag <;> rfl

theorem ofText?_eq_some_iff : ofText? arg = some flag ↔ arg = flag.text := by
  constructor
  · intro h
    rw [ofText?] at h
    have hfound := List.find?_some h
    exact (eq_of_beq hfound).symm
  · rintro rfl
    exact ofText?_text flag

theorem ofText?_eq_none_iff : ofText? arg = none ↔ ∀ flag : Flag, arg ≠ flag.text := by
  rw [Option.eq_none_iff_forall_ne_some]
  simp only [ne_eq, ofText?_eq_some_iff]

theorem text_injective {flag flag' : Flag} (h : flag.text = flag'.text) : flag = flag' := by
  rw [← ofText?_eq_some_iff, ofText?_text] at h
  exact (Option.some.inj h)

/-- The length of time that an option is about, for the options that are about one. -/
def lifetime? : Flag → Option (Lifetimes → Duration)
  | .bind => none
  | .users => none
  | .preKeyTtl => some (·.preKey)
  | .sessionTtl => some (·.session)
  | .envelopeTtl => some (·.envelope)

/-- The text is a number of seconds, at least one, in 64 bits. -/
def IsSeconds (value : String) (n : Nat) : Prop := Text.IsCount value n ∧ 1 ≤ n ∧ n < Nat.pow 2 64

/-- The option accepts the value where it stands. An address is not looked at before the end. -/
def Takes (flag : Flag) (value : String) : Prop :=
  flag.lifetime?.isSome → ∃ n, IsSeconds value n

end Flag

namespace Options

/-! ### Arguments -/

/-- The arguments, read from left to right, give the settings. A flag takes the argument after it
as its value, and any other argument in the place of a flag is skipped. -/
inductive Gives : List String → List (Flag × String) → Prop
  | done : Gives [] []
  | skip {arg : String} {rest : List String} {settings : List (Flag × String)}
      (h : ∀ flag : Flag, arg ≠ flag.text) (hrest : Gives rest settings) :
      Gives (arg :: rest) settings
  | set {rest : List String} {settings : List (Flag × String)} (flag : Flag) (value : String)
      (hrest : Gives rest settings) : Gives (flag.text :: value :: rest) ((flag, value) :: settings)

variable {args args' rest before : List String} {settings settings' : List (Flag × String)}
  {flag : Flag} {arg value : String}

theorem gives_nil_iff : Gives [] settings ↔ settings = [] := by
  constructor
  · rintro ⟨⟩
    rfl
  · rintro rfl
    exact .done

theorem gives_skip_iff (h : ∀ flag : Flag, arg ≠ flag.text) :
    Gives (arg :: rest) settings ↔ Gives rest settings := by
  constructor
  · rintro (_ | ⟨-, hrest⟩ | ⟨flag, value, -⟩)
    · exact hrest
    · exact absurd rfl (h flag)
  · exact .skip h

theorem gives_set_iff : Gives (flag.text :: value :: rest) settings ↔
    ∃ more, settings = (flag, value) :: more ∧ Gives rest more := by
  constructor
  · generalize htext : flag.text = arg
    intro h
    cases h with
    | skip h _ => exact absurd htext.symm (h flag)
    | set flag' value hrest =>
      rw [Flag.text_injective htext]
      exact ⟨_, rfl, hrest⟩
  · rintro ⟨more, rfl, hrest⟩
    exact .set flag value hrest

theorem not_gives_flag : ¬Gives [flag.text] settings := by
  generalize htext : flag.text = arg
  rintro (_ | ⟨h, -⟩ | _)
  exact h flag htext.symm

/-- Arguments that are read to their end are followed by others as if these stood alone. -/
theorem Gives.append_iff (h : Gives before settings') : Gives (before ++ rest) settings ↔
    ∃ more, settings = settings' ++ more ∧ Gives rest more := by
  induction h generalizing settings with
  | done => simp
  | skip h _ ih => rw [List.cons_append, gives_skip_iff h, ih]
  | set flag value _ ih =>
    rw [List.cons_append, List.cons_append, gives_set_iff]
    simp only [ih]
    constructor
    · rintro ⟨_, rfl, more, rfl, hrest⟩
      exact ⟨more, rfl, hrest⟩
    · rintro ⟨more, rfl, hrest⟩
      exact ⟨_, rfl, more, rfl, hrest⟩

theorem Gives.unique (h : Gives args settings) (h' : Gives args settings') :
    settings = settings' := by
  rw [← List.append_nil args, h'.append_iff] at h
  obtain ⟨more, rfl, hmore⟩ := h
  rw [gives_nil_iff.1 hmore, List.append_nil]

/-- Either every flag has a value or the last argument is a flag without one. -/
theorem exists_gives_or (args : List String) : (∃ settings, Gives args settings)
    ∨ ∃ before settings, Gives before settings ∧ ∃ flag : Flag, args = before ++ [flag.text] := by
  match args with
  | [] => exact .inl ⟨[], .done⟩
  | arg :: rest =>
    cases hflag : Flag.ofText? arg with
    | none =>
      have hskip := Flag.ofText?_eq_none_iff.1 hflag
      rcases exists_gives_or rest with ⟨settings, hrest⟩ | ⟨before, settings, hbefore, flag, rfl⟩
      · exact .inl ⟨settings, .skip hskip hrest⟩
      · exact .inr ⟨arg :: before, settings, .skip hskip hbefore, flag, rfl⟩
    | some flag =>
      obtain rfl := Flag.ofText?_eq_some_iff.1 hflag
      match rest with
      | [] => exact .inr ⟨[], [], .done, flag, rfl⟩
      | value :: rest =>
        rcases exists_gives_or rest with ⟨settings, hrest⟩ | ⟨before, settings, hbefore, last, rfl⟩
        · exact .inl ⟨(flag, value) :: settings, .set flag value hrest⟩
        · exact .inr ⟨flag.text :: value :: before, _, .set flag value hbefore, last, rfl⟩

/-- The arguments give settings exactly if every flag among them has a value. -/
theorem exists_gives_iff : (∃ settings, Gives args settings) ↔
    ∀ before settings, Gives before settings → ∀ flag : Flag, args ≠ before ++ [flag.text] := by
  constructor
  · rintro ⟨settings, h⟩ before settings' hbefore flag rfl
    obtain ⟨more, -, hmore⟩ := hbefore.append_iff.1 h
    exact not_gives_flag hmore
  · intro h
    rcases exists_gives_or args with hgives | ⟨before, settings, hbefore, flag, hargs⟩
    · exact hgives
    · exact absurd hargs (h before settings hbefore flag)

/-! ### The values of an option -/

/-- The values that the settings have for an option, from the first to the last. -/
def valuesOf (flag : Flag) (settings : List (Flag × String)) : List String :=
  (settings.filter (·.1 = flag)).map (·.2)

/-- The value that counts. -/
def lastValue (flag : Flag) (settings : List (Flag × String)) : Option String :=
  (valuesOf flag settings).getLast?

theorem valuesOf_append : valuesOf flag (settings ++ settings')
    = valuesOf flag settings ++ valuesOf flag settings' := by
  rw [valuesOf, List.filter_append, List.map_append]
  rfl

theorem lastValue_append : lastValue flag (settings ++ settings')
    = (lastValue flag settings').or (lastValue flag settings) := by
  rw [lastValue, valuesOf_append, List.getLast?_append]
  rfl

theorem lastValue_self : lastValue flag [(flag, value)] = some value := by
  simp [lastValue, valuesOf]

theorem lastValue_of_ne {flag' : Flag} (h : flag' ≠ flag) :
    lastValue flag [(flag', value)] = none := by
  simp [lastValue, valuesOf, h]

theorem mem_valuesOf_iff : value ∈ valuesOf flag settings ↔ (flag, value) ∈ settings := by
  simp [valuesOf]

/-- Neighbours of different options may change places. -/
theorem valuesOf_swap {flag' : Flag} {value' : String} (h : flag ≠ flag') (f : Flag) :
    valuesOf f [(flag, value), (flag', value')] = valuesOf f [(flag', value'), (flag, value)] := by
  by_cases hflag : flag = f
  · subst hflag
    simp [valuesOf, h.symm]
  · by_cases hflag' : flag' = f <;> simp [valuesOf, hflag, hflag']

/-- Every value is accepted where it stands. -/
def AllTaken (settings : List (Flag × String)) : Prop :=
  ∀ setting ∈ settings, setting.1.Takes setting.2

theorem allTaken_iff :
    AllTaken settings ↔ ∀ flag : Flag, ∀ value ∈ valuesOf flag settings, flag.Takes value := by
  simp only [AllTaken, mem_valuesOf_iff, Prod.forall]

/-! ### Drafts -/

theorem seconds_eq_ok_iff {ttl : Duration} : seconds flag value = .ok ttl ↔
    ∃ n, Flag.IsSeconds value n ∧ ttl = Duration.ofSeconds n := by
  unfold seconds
  split
  · next fault h =>
    refine iff_of_false nofun ?_
    rintro ⟨n, ⟨hcount, -, hlt⟩, -⟩
    have hread : Text.readCount (Nat.pow 2 64) value = .ok n :=
      Text.readCount_eq_ok_iff.2 ⟨hcount, hlt⟩
    rw [hread] at h
    cases h
  · next h =>
    refine iff_of_false nofun ?_
    rintro ⟨n, ⟨hcount, hpos, -⟩, -⟩
    have := hcount.unique (Text.readCount_eq_ok_iff.1 h).1
    omega
  · next n hpos h =>
    obtain ⟨hcount, hlt⟩ := Text.readCount_eq_ok_iff.1 h
    rw [Except.ok.injEq]
    constructor
    · rintro rfl
      exact ⟨n, ⟨hcount, Nat.one_le_iff_ne_zero.2 hpos, hlt⟩, rfl⟩
    · rintro ⟨m, ⟨hcount', -⟩, rfl⟩
      rw [hcount.unique hcount']

/-- The length of time is the one that the value spells, or the standard one if there is none. -/
def Lasts (value? : Option String) (standard ttl : Duration) : Prop :=
  match value? with
  | none => ttl = standard
  | some value => ∃ n, Flag.IsSeconds value n ∧ ttl = Duration.ofSeconds n

/-- What was settled first is what later values are measured against. -/
theorem Lasts.or_iff {first last : Option String} {a b c : Duration} (h : Lasts first a b) :
    Lasts (last.or first) a c ↔ Lasts last b c := by
  cases last with
  | some value => rfl
  | none =>
    cases first with
    | none =>
      cases h
      rfl
    | some value =>
      obtain ⟨n, hn, rfl⟩ := h
      constructor
      · rintro ⟨m, hm, rfl⟩
        rw [Text.IsCount.unique hm.1 hn.1]
        rfl
      · rintro rfl
        exact ⟨n, hn, rfl⟩

/-- Every length of time has its last value, or else the standard one. -/
def LastsEach (settings : List (Flag × String)) (standard lifetimes : Lifetimes) : Prop :=
  ∀ (flag : Flag) (ttl : Lifetimes → Duration), flag.lifetime? = some ttl →
    Lasts (lastValue flag settings) (ttl standard) (ttl lifetimes)

namespace Draft

/-- The settings make the second draft of the first. -/
structure Turns (d : Draft) (settings : List (Flag × String)) (d' : Draft) : Prop where
  bind : d'.bind = (lastValue .bind settings).getD d.bind
  users : d'.users = (lastValue .users settings).or d.users
  lifetimes : LastsEach settings d.lifetimes d'.lifetimes

variable {d d₁ d' : Draft}

theorem turns_nil_iff : d.Turns [] d' ↔ d' = d := by
  constructor
  · intro h
    obtain ⟨bind, users, envelope, preKey, session⟩ := d'
    obtain rfl : bind = d.bind := h.bind
    obtain rfl : users = d.users := h.users
    obtain rfl : envelope = d.lifetimes.envelope := h.lifetimes .envelopeTtl _ rfl
    obtain rfl : preKey = d.lifetimes.preKey := h.lifetimes .preKeyTtl _ rfl
    obtain rfl : session = d.lifetimes.session := h.lifetimes .sessionTtl _ rfl
    rfl
  · rintro rfl
    exact ⟨rfl, rfl, fun _ _ _ => rfl⟩

theorem Turns.append_iff (h : d.Turns settings d₁) :
    d.Turns (settings ++ settings') d' ↔ d₁.Turns settings' d' := by
  constructor
  · intro h'
    refine ⟨?_, ?_, fun f ttl hf => ?_⟩
    · rw [h'.bind, h.bind, lastValue_append, Option.getD_or]
    · rw [h'.users, h.users, lastValue_append, Option.or_assoc]
    · have hlasts := h'.lifetimes f ttl hf
      rw [lastValue_append] at hlasts
      exact (h.lifetimes f ttl hf).or_iff.1 hlasts
  · intro h'
    refine ⟨?_, ?_, fun f ttl hf => ?_⟩
    · rw [h'.bind, h.bind, lastValue_append, Option.getD_or]
    · rw [h'.users, h.users, lastValue_append, Option.or_assoc]
    · rw [lastValue_append]
      exact (h.lifetimes f ttl hf).or_iff.2 (h'.lifetimes f ttl hf)

/-- A length of time that is put in its place is settled, and nothing else is. -/
theorem turns_of_seconds {put : Duration → Lifetimes} (hflag : flag.lifetime?.isSome)
    (hput : ∀ ttl f get, Flag.lifetime? f = some get →
      get (put ttl) = if f = flag then ttl else get d.lifetimes)
    (h : (do .ok { d with lifetimes := put (← seconds flag value) }) = Except.ok d') :
    flag.Takes value ∧ d.Turns [(flag, value)] d' := by
  obtain ⟨ttl, httl, hd⟩ := bind_eq_ok_iff.1 h
  obtain ⟨n, hn, rfl⟩ := seconds_eq_ok_iff.1 httl
  cases hd
  refine ⟨fun _ => ⟨n, hn⟩, ?_, ?_, fun f get hf => ?_⟩
  · have hne : flag ≠ .bind := by rintro rfl; cases hflag
    rw [lastValue_of_ne hne, Option.getD_none]
  · have hne : flag ≠ .users := by rintro rfl; cases hflag
    rw [lastValue_of_ne hne, Option.none_or]
  · rw [hput _ f get hf]
    by_cases heq : f = flag
    · rw [if_pos heq, heq, lastValue_self]
      exact ⟨n, hn, rfl⟩
    · rw [if_neg heq, lastValue_of_ne (Ne.symm heq)]
      rfl

theorem turns_of_set (h : d.set flag value = .ok d') :
    flag.Takes value ∧ d.Turns [(flag, value)] d' := by
  cases flag with
  | bind =>
    cases h
    refine ⟨nofun, rfl, rfl, ?_⟩
    rintro (_ | _ | _ | _ | _) _ ⟨⟩ <;> rfl
  | users =>
    cases h
    refine ⟨nofun, rfl, rfl, ?_⟩
    rintro (_ | _ | _ | _ | _) _ ⟨⟩ <;> rfl
  | preKeyTtl | sessionTtl | envelopeTtl =>
    refine turns_of_seconds rfl ?_ h
    rintro ttl (_ | _ | _ | _ | _) _ ⟨⟩ <;> rfl

theorem exists_set (h : flag.Takes value) : ∃ d', d.set flag value = .ok d' := by
  have hseconds : flag.lifetime?.isSome → ∃ ttl, seconds flag value = .ok ttl := fun hflag => by
    obtain ⟨n, hn⟩ := h hflag
    exact ⟨_, seconds_eq_ok_iff.2 ⟨n, hn, rfl⟩⟩
  cases flag with
  | bind | users => exact ⟨_, rfl⟩
  | preKeyTtl | sessionTtl | envelopeTtl =>
    obtain ⟨ttl, httl⟩ := hseconds rfl
    exact ⟨_, bind_eq_ok_iff.2 ⟨ttl, httl, rfl⟩⟩

theorem exists_turns (h : AllTaken settings) : ∃ d', d.Turns settings d' := by
  induction settings generalizing d with
  | nil => exact ⟨d, turns_nil_iff.2 rfl⟩
  | cons setting settings ih =>
    obtain ⟨htakes, hmore⟩ := List.forall_mem_cons.1 h
    obtain ⟨d₁, hset⟩ : ∃ d₁, d.set setting.1 setting.2 = .ok d₁ := exists_set htakes
    obtain ⟨d', hturns⟩ : ∃ d', d₁.Turns settings d' := ih hmore
    exact ⟨d', (turns_of_set hset).2.append_iff.2 hturns⟩

theorem setAll_eq_ok_iff : d.setAll args = .ok d' ↔
    ∃ settings, Gives args settings ∧ AllTaken settings ∧ d.Turns settings d' := by
  fun_induction setAll d args generalizing d' with
  | case1 d =>
    simp only [gives_nil_iff, exists_eq_left, turns_nil_iff, Except.ok.injEq]
    constructor
    · rintro rfl
      exact ⟨nofun, rfl⟩
    · rintro ⟨-, rfl⟩
      rfl
  | case2 d arg rest hflag ih =>
    rw [ih]
    simp only [gives_skip_iff (Flag.ofText?_eq_none_iff.1 hflag)]
  | case3 d arg flag hflag =>
    obtain rfl := Flag.ofText?_eq_some_iff.1 hflag
    refine iff_of_false nofun ?_
    rintro ⟨settings, h, -⟩
    exact not_gives_flag h
  | case4 d arg flag value rest hflag ih =>
    obtain rfl := Flag.ofText?_eq_some_iff.1 hflag
    rw [bind_eq_ok_iff]
    simp only [ih]
    constructor
    · rintro ⟨d₁, hset, settings, hgives, htaken, hturns⟩
      obtain ⟨htakes, hd₁⟩ := turns_of_set hset
      exact ⟨(flag, value) :: settings, .set flag value hgives,
        List.forall_mem_cons.2 ⟨htakes, htaken⟩, hd₁.append_iff.2 hturns⟩
    · rintro ⟨_, hgives, htaken, hturns⟩
      obtain ⟨settings, rfl, hrest⟩ := gives_set_iff.1 hgives
      obtain ⟨htakes, hmore⟩ := List.forall_mem_cons.1 htaken
      obtain ⟨d₁, hset⟩ : ∃ d₁, d.set flag value = .ok d₁ := exists_set htakes
      exact ⟨d₁, hset, settings, hrest, hmore, (turns_of_set hset).2.append_iff.1 hturns⟩

end Draft

/-! ### Options -/

variable {o : Options}

/-- Each option has its last value, or else its standard one. -/
structure Settled (settings : List (Flag × String)) (o : Options) : Prop where
  bind : SocketAddress.ofText? ((lastValue .bind settings).getD "127.0.0.1:15000") = some o.bind
  users : o.users = lastValue .users settings
  lifetimes : LastsEach settings .standard o.lifetimes

theorem Draft.finish_eq_ok_iff {d : Draft} : d.finish = .ok o ↔
    SocketAddress.ofText? d.bind = some o.bind ∧ o.users = d.users ∧ o.lifetimes = d.lifetimes := by
  obtain ⟨bind, users, lifetimes⟩ := o
  unfold finish
  split
  · next address haddress =>
    rw [haddress, Except.ok.injEq, Options.mk.injEq, Option.some.injEq, eq_comm (b := users),
      eq_comm (b := lifetimes)]
  · next hnone =>
    rw [hnone]
    exact iff_of_false nofun nofun

/-- Arguments are read exactly if every flag among them has a value, every value is accepted where
it stands and the address that counts is one. -/
theorem parse_eq_ok_iff : parse args = .ok o ↔
    ∃ settings, Gives args settings ∧ AllTaken settings ∧ Settled settings o := by
  rw [parse, bind_eq_ok_iff]
  simp only [Draft.setAll_eq_ok_iff, Draft.finish_eq_ok_iff]
  constructor
  · rintro ⟨d, ⟨settings, hgives, htaken, hturns⟩, hbind, husers, hlifetimes⟩
    refine ⟨settings, hgives, htaken, ?_, ?_, ?_⟩
    · rw [← hbind, hturns.bind]
      rfl
    · rw [husers, hturns.users]
      exact Option.or_none
    · rw [hlifetimes]
      exact hturns.lifetimes
  · rintro ⟨settings, hgives, htaken, hbind, husers, hlifetimes⟩
    refine ⟨⟨_, o.users, o.lifetimes⟩, ⟨settings, hgives, htaken, rfl, ?_, hlifetimes⟩, hbind, rfl,
      rfl⟩
    rw [husers]
    exact Option.or_none.symm

/-- The lengths of time that options set are a second at least. -/
theorem Settled.one_second_le (h : Settled settings o) {ttl : Lifetimes → Duration}
    (hflag : flag.lifetime? = some ttl) : Duration.ofSeconds 1 ≤ ttl o.lifetimes := by
  have hlasts := h.lifetimes flag ttl hflag
  cases hlast : lastValue flag settings with
  | none =>
    rw [hlast] at hlasts
    have hstandard : ttl o.lifetimes = ttl .standard := hlasts
    rw [hstandard]
    cases flag <;> cases hflag <;> decide
  | some value =>
    rw [hlast] at hlasts
    obtain ⟨n, ⟨-, hpos, -⟩, httl⟩ := hlasts
    rw [httl]
    exact Nat.mul_le_mul_right _ hpos

/-! ### Rearranged arguments -/

/-- One change that keeps what the arguments mean: an argument that is skipped is left out, or
neighbours that set different options change places. -/
inductive Rearranged : List String → List String → Prop
  | skip {before rest : List String} {settings : List (Flag × String)} {arg : String}
      (hbefore : Gives before settings) (harg : ∀ flag : Flag, arg ≠ flag.text) :
      Rearranged (before ++ arg :: rest) (before ++ rest)
  | swap {before rest : List String} {settings : List (Flag × String)} {flag flag' : Flag}
      {value value' : String} (hbefore : Gives before settings) (hne : flag ≠ flag') :
      Rearranged (before ++ flag.text :: value :: flag'.text :: value' :: rest)
        (before ++ flag'.text :: value' :: flag.text :: value :: rest)

/-- What settings come to depends on the values of each option alone. -/
theorem Settled.of_values (h : Settled settings o)
    (hvalues : ∀ flag, valuesOf flag settings' = valuesOf flag settings) : Settled settings' o := by
  have hlast : ∀ flag, lastValue flag settings' = lastValue flag settings := fun flag => by
    rw [lastValue, hvalues, lastValue]
  refine ⟨?_, ?_, fun flag ttl hflag => ?_⟩
  · rw [hlast]
    exact h.bind
  · rw [hlast]
    exact h.users
  · rw [hlast]
    exact h.lifetimes flag ttl hflag

theorem AllTaken.of_values (h : AllTaken settings)
    (hvalues : ∀ flag, valuesOf flag settings' = valuesOf flag settings) : AllTaken settings' := by
  rw [allTaken_iff] at h ⊢
  intro flag
  rw [hvalues]
  exact h flag

theorem parse_swap {flag' : Flag} {value' : String} (hbefore : Gives before settings)
    (hne : flag ≠ flag')
    (h : parse (before ++ flag.text :: value :: flag'.text :: value' :: rest) = .ok o) :
    parse (before ++ flag'.text :: value' :: flag.text :: value :: rest) = .ok o := by
  obtain ⟨_, hgives, htaken, hsettled⟩ := parse_eq_ok_iff.1 h
  obtain ⟨_, rfl, hpairs⟩ := hbefore.append_iff.1 hgives
  obtain ⟨_, rfl, hpair⟩ := gives_set_iff.1 hpairs
  obtain ⟨later, rfl, hlater⟩ := gives_set_iff.1 hpair
  have hvalues : ∀ f, valuesOf f (settings ++ ([(flag', value'), (flag, value)] ++ later))
      = valuesOf f (settings ++ ([(flag, value), (flag', value')] ++ later)) := fun f => by
    rw [valuesOf_append, valuesOf_append, valuesOf_append, valuesOf_append, valuesOf_swap hne]
  exact parse_eq_ok_iff.2 ⟨_, hbefore.append_iff.2 ⟨_, rfl, .set _ _ (.set _ _ hlater)⟩,
    htaken.of_values hvalues, hsettled.of_values hvalues⟩

theorem Rearranged.parse_eq_ok_iff (h : Rearranged args args') :
    parse args = .ok o ↔ parse args' = .ok o := by
  cases h with
  | skip hbefore harg =>
    rw [Options.parse_eq_ok_iff, Options.parse_eq_ok_iff]
    simp only [hbefore.append_iff, gives_skip_iff harg]
  | swap hbefore hne => exact ⟨parse_swap hbefore hne, parse_swap hbefore hne.symm⟩

/-- Arguments are read exactly if every flag has a value, every length of time among the values is
one, and the last address, or else the standard one, is an address. Each option then has its last
value or else its standard one, and no length of time is under a second. Arguments that are skipped
make no difference, and neither does the order in which different options are set. -/
theorem parse_exact (args : List String) :
    ((∃ o, parse args = .ok o) ↔
      (∀ before settings, Gives before settings → ∀ flag : Flag, args ≠ before ++ [flag.text])
        ∧ ∀ settings, Gives args settings → AllTaken settings
          ∧ (SocketAddress.ofText? ((lastValue .bind settings).getD "127.0.0.1:15000")).isSome)
      ∧ (∀ o settings, parse args = .ok o → Gives args settings → Settled settings o
        ∧ ∀ (flag : Flag) (ttl : Lifetimes → Duration), flag.lifetime? = some ttl →
          Duration.ofSeconds 1 ≤ ttl o.lifetimes)
      ∧ ∀ args', Relation.ReflTransGen Rearranged args args' →
        ∀ o, parse args = .ok o ↔ parse args' = .ok o := by
  refine ⟨⟨?_, ?_⟩, ?_, ?_⟩
  · rintro ⟨o, h⟩
    obtain ⟨settings, hgives, htaken, hsettled⟩ := parse_eq_ok_iff.1 h
    refine ⟨exists_gives_iff.1 ⟨settings, hgives⟩, fun settings' hgives' => ?_⟩
    rw [hgives'.unique hgives, hsettled.bind]
    exact ⟨htaken, rfl⟩
  · rintro ⟨hvalues, hall⟩
    obtain ⟨settings, hgives⟩ := exists_gives_iff.2 hvalues
    obtain ⟨htaken, haddress⟩ := hall settings hgives
    obtain ⟨address, haddress⟩ := Option.isSome_iff_exists.1 haddress
    obtain ⟨d, hturns⟩ : ∃ d, Draft.standard.Turns settings d := Draft.exists_turns htaken
    refine ⟨⟨address, d.users, d.lifetimes⟩, parse_eq_ok_iff.2 ⟨settings, hgives, htaken, ?_⟩⟩
    exact ⟨haddress, hturns.users.trans Option.or_none, hturns.lifetimes⟩
  · intro o settings h hgives
    obtain ⟨settings', hgives', -, hsettled⟩ := parse_eq_ok_iff.1 h
    obtain rfl := hgives'.unique hgives
    exact ⟨hsettled, fun _ _ hflag => hsettled.one_second_le hflag⟩
  · intro args' h o
    induction h with
    | refl => rfl
    | tail _ hlast ih => exact ih.trans hlast.parse_eq_ok_iff

/-- A flag may stand in the place of a value, which counts for nothing if another value follows. -/
theorem parse_exact_flag_as_value : ∃ o,
    parse ["-v", "--session-ttl-secs", "60", "--bind", "--users", "--bind", "[::1]:80"] = .ok o
      ∧ parse ["--bind", "--users", "--session-ttl-secs", "60", "--bind", "[::1]:80"] = .ok o := by
  have hskip : Rearranged
      ["-v", "--session-ttl-secs", "60", "--bind", "--users", "--bind", "[::1]:80"]
      ["--session-ttl-secs", "60", "--bind", "--users", "--bind", "[::1]:80"] :=
    .skip .done fun flag => by cases flag <;> decide
  have hswap : Rearranged
      ["--session-ttl-secs", "60", "--bind", "--users", "--bind", "[::1]:80"]
      ["--bind", "--users", "--session-ttl-secs", "60", "--bind", "[::1]:80"] :=
    @Rearranged.swap [] _ _ .sessionTtl .bind _ _ .done (by decide)
  obtain ⟨o, ho⟩ : ∃ o, parse
      ["-v", "--session-ttl-secs", "60", "--bind", "--users", "--bind", "[::1]:80"] = .ok o :=
    ⟨_, rfl⟩
  exact ⟨o, ho, ((parse_exact _).2.2 _ (.tail (.single hskip) hswap) o).1 ho⟩

end Options

end SealedLogin
