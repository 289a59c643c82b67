import SealedLogin.Http.Message
import SealedLogin.Login.Client
import SealedLogin.Proofs.Coding.Hex

/-!
# Presenting a token

A request whose first authorization header is what the client makes of its token (`Presents`) is
read as presenting that token (`bearerToken?_of_presents`), if the token is made of visible
characters, as one in hexadecimal is.
-/

namespace SealedLogin.Http.Request

/-- The character is plain and no blank. -/
def IsVisible (c : Char) : Prop := ' ' < c ∧ c < '\x7f'

theorem isVisible_iff {c : Char} : IsVisible c ↔ 32 < c.toNat ∧ c.toNat < 127 :=
  and_congr UInt32.lt_iff_toNat_lt UInt32.lt_iff_toNat_lt

theorem isVisible_of_mem_encode {b : Bytes} {c : Char} (h : c ∈ (Hex.encode b).toList) :
    IsVisible c := by
  obtain ⟨n, hn, rfl⟩ := Hex.exists_digit_of_mem_encode h
  have hn : n.toNat < 16 := UInt8.lt_iff_toNat_lt.1 hn
  rw [isVisible_iff, Hex.digit]
  split
  · rw [Utf8.toNat_charOfNat (.inl (by omega))]
    omega
  · rw [Utf8.toNat_charOfNat (.inl (by omega))]
    omega

theorem isBlank_of_isVisible {c : Char} (h : IsVisible c) : isBlank c = false := by
  have hblank : c ≠ ' ' := fun heq => absurd h.1 (by rw [heq]; decide)
  have htab : c ≠ '\t' := fun heq => absurd h.1 (by rw [heq]; decide)
  rw [isBlank, beq_false_of_ne hblank, beq_false_of_ne htab]
  rfl

theorem dropWhile_isBlank {cs : List Char} (h : ∀ c ∈ cs, IsVisible c) :
    cs.dropWhile isBlank = cs := by
  cases cs with
  | nil => rfl
  | cons c cs =>
    rw [List.dropWhile_cons_of_neg]
    rw [isBlank_of_isVisible (h c (.head _))]
    exact Bool.false_ne_true

theorem trim_of_isVisible {cs : List Char} (h : ∀ c ∈ cs, IsVisible c) : trim cs = cs := by
  have hreverse : ∀ c ∈ cs.reverse, IsVisible c := fun c hc => h c (List.mem_reverse.1 hc)
  rw [trim, dropWhile_isBlank h, dropWhile_isBlank hreverse, List.reverse_reverse]

theorem isPlain_bearer {session : EstablishedSession}
    (h : ∀ c ∈ session.token.toList, IsVisible c) : isPlain session.bearer = true := by
  have key : ∀ c, IsVisible c → ((' ' ≤ c && c < '\x7f') || c == '\t') = true := by
    intro c hc
    have hle : ' ' ≤ c := UInt32.le_of_lt hc.1
    simp [hle, hc.2]
  rw [isPlain, EstablishedSession.bearer, String.toList_append, List.all_append, Bool.and_eq_true]
  refine ⟨by decide, List.all_eq_true.2 fun c hc => ?_⟩
  exact key c (h c hc)

/-- The first authorization header of the request is that of the session. -/
def Presents (r : Request) (session : EstablishedSession) : Prop :=
  ∃ name, r.headers.find? (fun h => String.ofList (h.1.toList.map Char.toLower) == "authorization")
    = some (name, session.bearer)

theorem bearerToken?_of_presents {r : Request} {session : EstablishedSession}
    (h : r.Presents session) (hne : session.token ≠ "")
    (hvisible : ∀ c ∈ session.token.toList, IsVisible c) :
    r.bearerToken? = some session.token := by
  obtain ⟨name, hheader⟩ := h
  have hvalue : r.header? "authorization" = some session.bearer := by
    rw [header?, hheader, Option.map_some, Option.filter_some, if_pos (isPlain_bearer hvisible)]
  have hlist : session.bearer.toList = bearerHead ++ session.token.toList := by
    rw [EstablishedSession.bearer, String.toList_append]
    rfl
  have htoken : session.token.toList.isEmpty ≠ true := by
    intro h
    exact hne (String.toList_eq_nil_iff.1 (List.isEmpty_iff.1 h))
  rw [bearerToken?, hvalue]
  dsimp only
  rw [hlist, if_pos (List.isPrefixOf_iff_prefix.2 (List.prefix_append _ _)), List.drop_left,
    trim_of_isVisible hvisible, if_neg htoken, String.ofList_toList]

end SealedLogin.Http.Request
