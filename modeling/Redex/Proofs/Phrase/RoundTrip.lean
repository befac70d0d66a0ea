import Redex.Judgement
import Redex.Proofs.Phrase.Spelling
import Redex.Proofs.Term.Grammar

/-! # Reading the tokens of a printed phrase

    The tokens of a printed phrase spell the phrase in the grammar, by induction on the
    phrase.  The parsers read what the grammar spells, so reading gives back the phrase. -/

namespace Redex

open Token

/-! ### Types -/

namespace Ty

/-- The tokens of a type spell it as an operand: an arrow stands in parentheses. -/
theorem operand_tokens {ty : Ty} (hty : ty.wellNamed = true) : Operand ty.tokens ty := by
  induction ty with
  | missing => simp [wellNamed] at hty
  | base name => exact .base name
  | arrow source target ihs iht =>
    simp only [wellNamed, Bool.and_eq_true] at hty
    exact .group "" "" (.arrow "" (ihs hty.1) (.operand (iht hty.2)))

theorem ofTokens_tokens {ty : Ty} (hty : ty.wellNamed = true) :
    ofTokens ty.tokens = .ok ty :=
  ofTokens_eq_ok_iff.2 (.operand (operand_tokens hty))

end Ty

/-! ### Terms -/

namespace Term

/-- Whether the abstractions of a term are annotated as the mode reads them: all in the
    typed mode, and none in any other. -/
def fits (mode : Mode) : Term → Bool
  | .missing => true
  | .var _ => true
  | .abs _ ty body => (mode.isTyped == (ty != .missing)) && body.fits mode
  | .app fn arg => fn.fits mode && arg.fits mode

/-- The tokens of an annotation are those that the mode asks for. -/
theorem annotation_hatTokens {mode : Mode} {ty : Ty} (hty : ty = .missing ∨ ty.wellNamed = true)
    (hfits : mode.isTyped = (ty != .missing)) : Annotation mode (hatTokens ty) ty := by
  by_cases hmissing : ty = .missing
  · subst hmissing
    exact .absent (by simp [hfits])
  · have hoperand := Ty.operand_tokens (hty.resolve_left hmissing)
    simpa [hatTokens, hmissing] using Annotation.hat (by simp [hfits, hmissing]) "" hoperand

/-- A term is one item if it stands in parentheses or is a variable. -/
theorem items_operand {mode : Mode} {t : Term} (h : Derives mode t.tokens t)
    {rest : List Token} {items : List Term} (hrest : Items mode rest items) :
    Items mode ((if t.isVar then t.tokens else group t.tokens) ++ rest) (t :: items) := by
  split
  · rename_i hvar
    cases t with
    | var name => exact .var name hrest
    | missing | abs | app => simp [isVar] at hvar
  · simpa [Token.group] using Items.group "" "" h hrest

theorem derives_tokens {mode : Mode} {t : Term} (ht : t.wellNamed = true)
    (hfits : t.fits mode = true) : Derives mode t.tokens t := by
  induction t with
  | missing => simp [wellNamed] at ht
  | var name => exact .apply (.var name .nil)
  | abs binder ty body ih =>
    simp only [wellNamed, Bool.and_eq_true, Bool.or_eq_true, beq_iff_eq] at ht
    simp only [fits, Bool.and_eq_true, beq_iff_eq] at hfits
    exact .apply (.abs binder "" (annotation_hatTokens ht.1.2 hfits.1) (ih ht.2 hfits.2))
  | app fn arg ihf iha =>
    simp only [wellNamed, Bool.and_eq_true] at ht
    simp only [fits, Bool.and_eq_true] at hfits
    -- nothing is missing, so an argument without parentheses is a variable
    have harg : (if arg.isApp || arg.isAbs then group arg.tokens else arg.tokens) =
        if arg.isVar then arg.tokens else group arg.tokens := by
      cases arg <;> simp_all [isVar, isApp, isAbs, wellNamed]
    have hitems := items_operand (iha ht.2 hfits.2) .nil
    rw [List.append_nil] at hitems
    rw [tokens, harg]
    exact .apply (items_operand (ihf ht.1 hfits.1) hitems)

theorem ofTokens_tokens {mode : Mode} {t : Term} (ht : t.wellNamed = true)
    (hfits : t.fits mode = true) : ofTokens mode t.tokens = .ok t :=
  (derives_tokens ht hfits).ofTokens_eq

end Term

/-! ### Judgements -/

namespace Judgement

/-- An expression, a colon and a type are three tokens at least. -/
theorem three_le_length {mode : Mode} {left right : List Token} {t : Term} {ty : Ty}
    (text : String) (hterm : Term.ofTokens mode left = .ok t)
    (hty : Ty.ofTokens right = .ok ty) :
    3 ≤ (left ++ ⟨.colon, text⟩ :: right : List Token).length := by
  have hleft := List.length_pos_iff.2 (Term.ne_nil_of_ofTokens hterm)
  have hright := List.length_pos_iff.2 (Ty.ne_nil_of_ofTokens hty)
  rw [List.length_append, List.length_cons]
  omega

/-- An expression and a type have no colon in them, so the colon between them divides a
    judgement. -/
theorem ofTokens_append_colon {mode : Mode} {left right : List Token} {t : Term} {ty : Ty}
    (text : String) (hterm : Term.ofTokens mode left = .ok t)
    (hty : Ty.ofTokens right = .ok ty) :
    ofTokens mode (left ++ ⟨.colon, text⟩ :: right) = .ok ⟨t, ty⟩ := by
  have hterm_ne := Term.ne_nil_of_ofTokens hterm
  have hty_ne := Ty.ne_nil_of_ofTokens hty
  have hrun : ∀ token ∈ left, (!token.kind == .colon) = true := by
    simpa using Term.kind_ne_colon_of_ofTokens hterm
  have hstop : Stops (fun token : Token => !token.kind == .colon) (⟨.colon, text⟩ :: right) :=
    .cons rfl
  have hlength := Nat.not_lt.2 (three_le_length text hterm hty)
  have hcolon : right.any (fun token => token.kind == .colon) = false := by
    simpa using Ty.kind_ne_colon_of_ofTokens hty
  simp only [ofTokens, hstop.takeWhile_append hrun, hstop.dropWhile_append hrun, List.drop_one,
    List.tail_cons, if_neg hlength, hcolon]
  simp [hterm_ne, hty_ne, hterm, hty, Except.map]

theorem ofTokens_tokens {mode : Mode} {j : Judgement} (hterm : j.term.wellNamed = true)
    (hfits : j.term.fits mode = true) (hty : j.ty.wellNamed = true) :
    ofTokens mode j.tokens = .ok j := by
  have hgroup : Term.Derives mode (group j.term.tokens) j.term :=
    .apply (.group "" "" (Term.derives_tokens hterm hfits) .nil)
  exact ofTokens_append_colon "" hgroup.ofTokens_eq (Ty.ofTokens_tokens hty)

end Judgement

/-! ### Printing and reading -/

/-- Reading undoes printing.  A well-named term that is annotated as the mode reads it comes
    back from its text, with the names of its binders and its annotations; so does every
    judgement that gives it a well-named type. -/
theorem scan_render_ofTokens {mode : Mode} {t : Term} (ht : t.wellNamed = true)
    (hfits : t.fits mode = true) :
    (∃ tokens, scan t.render = .ok tokens ∧ Term.ofTokens mode tokens = .ok t) ∧
    ∀ ty : Ty, ty.wellNamed = true →
      ∃ tokens, scan (Judgement.render ⟨t, ty⟩) = .ok tokens ∧
        Judgement.ofTokens mode tokens = .ok ⟨t, ty⟩ := by
  constructor
  · exact ⟨t.tokens, Term.scan_render ht, Term.ofTokens_tokens ht hfits⟩
  · intro ty hty
    exact ⟨_, Judgement.scan_render ht hty, Judgement.ofTokens_tokens ht hfits hty⟩

/-- In `((λf^(A -> B).f xλ) (λy1^A.y1)) : B` a variable has the marker in its name, and
    abstractions stand on both sides of an application. -/
theorem scan_render_ofTokens_nested :
    (Term.app
        (.abs "f" (.arrow (.base "A") (.base "B")) (.app (.var "f") (.var "xλ")))
        (.abs "y1" (.base "A") (.var "y1"))).wellNamed = true ∧
    ∃ tokens,
      scan (Judgement.render
        ⟨.app (.abs "f" (.arrow (.base "A") (.base "B")) (.app (.var "f") (.var "xλ")))
          (.abs "y1" (.base "A") (.var "y1")), .base "B"⟩) = .ok tokens ∧
      Judgement.ofTokens .typed tokens =
        .ok ⟨.app (.abs "f" (.arrow (.base "A") (.base "B")) (.app (.var "f") (.var "xλ")))
          (.abs "y1" (.base "A") (.var "y1")), .base "B"⟩ := by
  have ht : (Term.app
      (.abs "f" (.arrow (.base "A") (.base "B")) (.app (.var "f") (.var "xλ")))
      (.abs "y1" (.base "A") (.var "y1"))).wellNamed = true := by decide
  exact ⟨ht, (scan_render_ofTokens ht (by decide)).2 _ (by decide)⟩

end Redex
