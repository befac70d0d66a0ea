import Redex.Phrase
import Redex.Proofs.Phrase.RoundTrip

/-! # What is read can be printed and read again

    Scanned tokens have the names that their kinds ask for.  A phrase that is spelled by such
    tokens is well named and annotated as the mode reads it, by induction on the way it is
    spelled.  So its text can be read, and gives the same phrase. -/

namespace Redex

open Token

/-! ### Types -/

namespace Ty

mutual

theorem Derives.wellNamed {tokens : List Token} {ty : Ty}
    (hnames : ∀ token ∈ tokens, token.wellNamed = true) :
    Derives tokens ty → ty.wellNamed = true
  | .operand h => h.wellNamed hnames
  | .arrow _ hsource htarget => by
    have hs := hsource.wellNamed fun token hmem => hnames token (by simp [hmem])
    have ht := htarget.wellNamed fun token hmem => hnames token (by simp [hmem])
    simp [Ty.wellNamed, hs, ht]

theorem Operand.wellNamed {tokens : List Token} {ty : Ty}
    (hnames : ∀ token ∈ tokens, token.wellNamed = true) :
    Operand tokens ty → ty.wellNamed = true
  | .base name => hnames ⟨.upper, name⟩ (.head _)
  | .group _ _ h => h.wellNamed fun token hmem => hnames token (by simp [hmem])

end

theorem ne_missing_of_wellNamed {ty : Ty} (h : ty.wellNamed = true) : ty ≠ .missing := by
  rintro rfl
  simp [Ty.wellNamed] at h

end Ty

/-! ### Terms -/

namespace Term

/-- The text of the term can be read in the mode. -/
structure Readable (mode : Mode) (t : Term) : Prop where
  wellNamed : t.wellNamed = true
  fits : t.fits mode = true

namespace Readable

variable {mode : Mode}

theorem var {name : String} (h : isVariableName name = true) : Readable mode (.var name) :=
  ⟨h, rfl⟩

theorem app {fn arg : Term} (hfn : Readable mode fn) (harg : Readable mode arg) :
    Readable mode (.app fn arg) := by
  constructor
  · simp [Term.wellNamed, hfn.wellNamed, harg.wellNamed]
  · simp [Term.fits, hfn.fits, harg.fits]

theorem abs {binder : String} {hat : List Token} {ty : Ty} {body : Term}
    (hbinder : isBinderName binder = true) (hhat : Annotation mode hat ty)
    (hnames : ∀ token ∈ hat, token.wellNamed = true) (hbody : Readable mode body) :
    Readable mode (.abs binder ty body) := by
  cases hhat with
  | absent hmode =>
    constructor
    · simp [Term.wellNamed, hbinder, hbody.wellNamed]
    · simp [Term.fits, hmode, hbody.fits]
  | hat hmode text hoperand =>
    have hty : ty.wellNamed = true :=
      hoperand.wellNamed fun token hmem => hnames token (.tail _ hmem)
    constructor
    · simp [Term.wellNamed, hbinder, hty, hbody.wellNamed]
    · simp [Term.fits, hmode, Ty.ne_missing_of_wellNamed hty, hbody.fits]

theorem foldl {first : Term} {others : List Term} (hfirst : Readable mode first)
    (hothers : ∀ t ∈ others, Readable mode t) : Readable mode (others.foldl .app first) := by
  induction others generalizing first with
  | nil => exact hfirst
  | cons t others ih =>
    have ht := hothers t (.head _)
    exact ih (hfirst.app ht) fun u hu => hothers u (.tail _ hu)

end Readable

mutual

/-- What well-named tokens spell can be printed and read again. -/
theorem Derives.readable {mode : Mode} {tokens : List Token} {t : Term}
    (hnames : ∀ token ∈ tokens, token.wellNamed = true) :
    Derives mode tokens t → Readable mode t
  | .apply hitems => by
    have hall := hitems.readable hnames
    exact .foldl (hall _ (.head _)) fun t ht => hall t (.tail _ ht)

theorem Items.readable {mode : Mode} {tokens : List Token} {items : List Term}
    (hnames : ∀ token ∈ tokens, token.wellNamed = true) :
    Items mode tokens items → ∀ t ∈ items, Readable mode t
  | .nil => by simp
  | .var name hrest => by
    have hr := hrest.readable fun token hmem => hnames token (by simp [hmem])
    exact List.forall_mem_cons.2 ⟨.var (hnames ⟨.lower, name⟩ (.head _)), hr⟩
  | .group _ _ hinside hrest => by
    have hi := hinside.readable fun token hmem => hnames token (by simp [hmem])
    have hr := hrest.readable fun token hmem => hnames token (by simp [hmem])
    exact List.forall_mem_cons.2 ⟨hi, hr⟩
  | .dot _ hrest => by
    have hr := hrest.readable fun token hmem => hnames token (by simp [hmem])
    simpa using hr
  | .abs binder _ hhat hbody => by
    have hb := hbody.readable fun token hmem => hnames token (by simp [hmem])
    have ht := Readable.abs (hnames ⟨.lambda, binder⟩ (.head _)) hhat
      (fun token hmem => hnames token (by simp [hmem])) hb
    simpa using ht
  | .shortAbs binder hhat hbody hrest => by
    have hb := hbody.readable fun token hmem => hnames token (by simp [hmem])
    have hr := hrest.readable fun token hmem => hnames token (by simp [hmem])
    have ht := Readable.abs (hnames ⟨.lambda, binder⟩ (.head _)) hhat
      (fun token hmem => hnames token (by simp [hmem])) hb
    exact List.forall_mem_cons.2 ⟨ht, hr⟩

theorem Short.readable {mode : Mode} {tokens : List Token} {t : Term}
    (hnames : ∀ token ∈ tokens, token.wellNamed = true) :
    Short mode tokens t → Readable mode t
  | .var name => .var (hnames ⟨.lower, name⟩ (.head _))
  | .group _ _ hinside => hinside.readable fun token hmem => hnames token (by simp [hmem])
  | .abs binder hhat _ hbody => by
    have hb := hbody.readable fun token hmem => hnames token (by simp [hmem])
    exact .abs (hnames ⟨.lambda, binder⟩ (.head _)) hhat.annotation
      (fun token hmem => hnames token (by simp [hmem])) hb

end

end Term

/-! ### Judgements -/

/-- Tokens with a colon among them are divided by their first colon. -/
theorem Token.exists_of_any_colon {tokens : List Token}
    (h : tokens.any (fun token => token.kind == .colon) = true) :
    ∃ text, tokens =
      tokens.takeWhile (fun token => !token.kind == .colon) ++
        ⟨.colon, text⟩ :: (tokens.dropWhile fun token => !token.kind == .colon).drop 1 := by
  induction tokens with
  | nil => simp at h
  | cons token tokens ih =>
    obtain ⟨kind, text⟩ := token
    by_cases hkind : kind = .colon
    · subst hkind
      exact ⟨text, by simp⟩
    · obtain ⟨text', htokens⟩ := ih (by simpa [hkind] using h)
      exact ⟨text', by simpa [hkind] using htokens⟩

/-- A judgement that is read is an expression and a type with a colon in between. -/
theorem Judgement.exists_of_ofTokens {mode : Mode} {tokens : List Token} {j : Judgement}
    (h : ofTokens mode tokens = .ok j) :
    ∃ left text right, tokens = left ++ ⟨.colon, text⟩ :: right ∧
      Term.ofTokens mode left = .ok j.term ∧ Ty.ofTokens right = .ok j.ty := by
  simp only [ofTokens] at h
  iterate 3
    split at h
    · cases h
  rename_i hcolon
  obtain ⟨text, htokens⟩ := Token.exists_of_any_colon (by simpa using hcolon)
  -- behind the other checks, the two sides of the colon are read
  iterate 4
    split at h
    · cases h
  rename_i t hterm
  obtain ⟨ty, hty, hpair⟩ := exists_of_map_eq_ok h
  cases hpair
  exact ⟨_, text, _, htokens, hterm, hty⟩

/-! ### Phrases -/

namespace Phrase

/-- The text of the phrase can be read in the mode. -/
def Readable (mode : Mode) : Phrase → Prop
  | .expression t => mode.isTyped = false ∧ t.Readable mode
  | .judgement j => mode.isTyped = true ∧ j.term.Readable mode ∧ j.ty.wellNamed = true

/-- A phrase that was read from well-named tokens can be printed and read again. -/
theorem readable_of_ofTokens {mode : Mode} {tokens : List Token} {phrase : Phrase}
    (hnames : ∀ token ∈ tokens, token.wellNamed = true)
    (h : ofTokens mode tokens = .ok phrase) : phrase.Readable mode := by
  unfold ofTokens at h
  split at h
  · rename_i hmode
    obtain ⟨j, hread, rfl⟩ := exists_of_map_eq_ok h
    obtain ⟨left, text, right, rfl, hterm, hty⟩ := Judgement.exists_of_ofTokens hread
    have hleft := (Term.derives_of_ofTokens hterm).readable fun token hmem =>
      hnames token (by simp [hmem])
    have hright := (Ty.ofTokens_eq_ok_iff.1 hty).wellNamed fun token hmem =>
      hnames token (by simp [hmem])
    exact ⟨hmode, hleft, hright⟩
  · rename_i hmode
    obtain ⟨t, hread, rfl⟩ := exists_of_map_eq_ok h
    exact ⟨by simpa using hmode, (Term.derives_of_ofTokens hread).readable hnames⟩

/-- The text of a readable phrase is read as that phrase. -/
theorem Readable.exists_scan_render {mode : Mode} {phrase : Phrase} (h : phrase.Readable mode) :
    ∃ tokens, scan phrase.render = .ok tokens ∧ ofTokens mode tokens = .ok phrase := by
  unfold ofTokens
  cases phrase with
  | expression t =>
    obtain ⟨hmode, ht⟩ := h
    refine ⟨t.tokens, Term.scan_render ht.wellNamed, ?_⟩
    rw [hmode, Term.ofTokens_tokens ht.wellNamed ht.fits]
    rfl
  | judgement j =>
    obtain ⟨hmode, hterm, hty⟩ := h
    refine ⟨j.tokens, Judgement.scan_render hterm.wellNamed hty, ?_⟩
    rw [if_pos hmode, Judgement.ofTokens_tokens hterm.wellNamed hterm.fits hty]
    rfl

/-- The text of a phrase that was read is read as the same phrase. -/
theorem scan_render_of_ofTokens {mode : Mode} {tokens : List Token} {phrase : Phrase}
    (hnames : ∀ token ∈ tokens, token.wellNamed = true)
    (h : ofTokens mode tokens = .ok phrase) :
    ∃ again, scan phrase.render = .ok again ∧ ofTokens mode again = .ok phrase :=
  (readable_of_ofTokens hnames h).exists_scan_render

end Phrase

end Redex
