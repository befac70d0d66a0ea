import Redex.Judgement
import Redex.Proofs.Token.Scanning

/-! # The tokens of a printed phrase

    A tree is well named if nothing is missing in it and its names can be read as what they
    stand for.  The text of such a tree scans into the tokens that its printer meant:
    names keep their ends, since what the printer puts behind a name never goes on with
    it. -/

namespace Redex

open Token Text

/-! ### Printers -/

/-- A printer spells the tokens if they are read from what it puts in front of any text
    that does not go on with a name. -/
def Spells (write : List Char → List Char) (tokens : List Token) : Prop :=
  ∀ text more, Stops isAlphanumeric text → Scans text more → Scans (write text) (tokens ++ more)

/-- The tokens of a phrase in parentheses. -/
def Token.group (inside : List Token) : List Token :=
  ⟨.lparen, ""⟩ :: (inside ++ [⟨.rparen, ""⟩])

/-- A phrase in parentheses ends with the right one, whatever follows. -/
theorem Spells.group {write : List Char → List Char} {inside : List Token}
    (hinside : Spells write inside) {text : List Char} {more : List Token}
    (h : Scans text more) :
    Scans ('(' :: write (')' :: text)) (Token.group inside ++ more) := by
  simp only [Token.group, List.cons_append, List.append_assoc, List.nil_append]
  exact .symbol (by decide) (hinside _ _ (.cons (by decide)) (.symbol (by decide) h))

/-! ### Types -/

namespace Ty

/-- Whether no part of a type is missing and its base types are named as such. -/
def wellNamed : Ty → Bool
  | .missing => false
  | .base name => isTypeName name
  | .arrow source target => source.wellNamed && target.wellNamed

/-- The tokens of the text of a type. -/
def tokens : Ty → List Token
  | .missing => []
  | .base name => [⟨.upper, name⟩]
  | .arrow source target => group (source.tokens ++ ⟨.arrow, ""⟩ :: target.tokens)

theorem spells_write {ty : Ty} (hty : ty.wellNamed = true) : Spells ty.write ty.tokens := by
  induction ty with
  | missing => simp [wellNamed] at hty
  | base name =>
    intro text more hstop h
    exact .typeName hty hstop h
  | arrow source target ihs iht =>
    simp only [wellNamed, Bool.and_eq_true] at hty
    have hinside : Spells
        (fun text => source.write (' ' :: '-' :: '>' :: ' ' :: target.write text))
        (source.tokens ++ ⟨.arrow, ""⟩ :: target.tokens) := by
      intro text more hstop h
      rw [List.append_assoc]
      refine ihs hty.1 _ _ (.cons (by decide)) (.blank (by decide) (.arrow ?_))
      exact .blank (by decide) (iht hty.2 _ _ hstop h)
    intro text more _ h
    exact hinside.group h

end Ty

/-! ### Terms -/

namespace Term

/-- Whether no part of a term is missing and its binders, variables and base types are
    named as such. -/
def wellNamed : Term → Bool
  | .missing => false
  | .var name => isVariableName name
  | .abs binder ty body =>
    isBinderName binder && (ty == .missing || ty.wellNamed) && body.wellNamed
  | .app fn arg => fn.wellNamed && arg.wellNamed

/-- The tokens of the annotation of a binder. -/
def hatTokens (ty : Ty) : List Token :=
  if ty = .missing then [] else ⟨.hat, ""⟩ :: ty.tokens

/-- The tokens of the text of a term. -/
def tokens : Term → List Token
  | .missing => []
  | .var name => [⟨.lower, name⟩]
  | .abs binder ty body =>
    ⟨.lambda, binder⟩ :: (hatTokens ty ++ ⟨.dot, ""⟩ :: body.tokens)
  | .app fn arg =>
    (if fn.isVar then fn.tokens else group fn.tokens) ++
      if arg.isApp || arg.isAbs then group arg.tokens else arg.tokens

/-- The text of a term may stand behind a dot. -/
theorem write_eq_cons {t : Term} (ht : t.wellNamed = true) (rest : List Char) :
    ∃ c text, t.write rest = c :: text ∧ isBlank c = false ∧ c ≠ ':' := by
  induction t generalizing rest with
  | missing => simp [wellNamed] at ht
  | var name =>
    obtain ⟨c, run, rfl, hc, -⟩ := exists_of_isName ht
    have halpha : c.isAlpha = true := isAlpha_iff.2 (.inr hc)
    refine ⟨c, run ++ rest, by simp [write], isBlank_eq_false_of_isAlpha halpha, ?_⟩
    rintro rfl
    exact absurd halpha (by decide)
  | abs binder ty body _ => exact ⟨'λ', _, rfl, by decide, by decide⟩
  | app fn arg ihf _ =>
    simp only [wellNamed, Bool.and_eq_true] at ht
    rw [write]
    split
    · exact ihf ht.1 _
    · exact ⟨'(', _, rfl, by decide, by decide⟩

/-- A binder and its annotation, in front of the dot. -/
theorem scans_binder {binder : String} {ty : Ty} (hbinder : isBinderName binder = true)
    (hty : ty = .missing ∨ ty.wellNamed = true) {text : List Char} {more : List Token}
    (h : Scans ('.' :: text) more) :
    Scans ('λ' :: (binder.toList ++ writeHat ty ('.' :: text)))
      (⟨.lambda, binder⟩ :: (hatTokens ty ++ more)) := by
  unfold writeHat hatTokens
  split
  · exact .binder hbinder (by decide) h
  · rename_i hne
    have hwell : ty.wellNamed = true := hty.resolve_left hne
    exact .binder hbinder (by decide)
      (.symbol (by decide) (Ty.spells_write hwell _ _ (.cons (by decide)) h))

theorem spells_write {t : Term} (ht : t.wellNamed = true) : Spells t.write t.tokens := by
  induction t with
  | missing => simp [wellNamed] at ht
  | var name =>
    intro text more hstop h
    exact .variable ht hstop h
  | abs binder ty body ih =>
    intro text more hstop h
    simp only [wellNamed, Bool.and_eq_true, Bool.or_eq_true, beq_iff_eq] at ht
    obtain ⟨⟨hbinder, hty⟩, hbody⟩ := ht
    have hscan := ih hbody text more hstop h
    obtain ⟨c, rest, htext, hblank, hcolon⟩ := write_eq_cons hbody text
    simp only [write, tokens, htext, List.cons_append, List.append_assoc] at hscan ⊢
    exact scans_binder hbinder hty (hscan.dot hblank hcolon)
  | app fn arg ihf iha =>
    intro text more hstop h
    simp only [wellNamed, Bool.and_eq_true] at ht
    simp only [write, tokens, List.append_assoc]
    have harg : Scans
        (' ' :: if arg.isApp || arg.isAbs then '(' :: arg.write (')' :: text) else arg.write text)
        ((if arg.isApp || arg.isAbs then group arg.tokens else arg.tokens) ++ more) := by
      refine .blank (by decide) ?_
      split
      · exact (iha ht.2).group h
      · exact iha ht.2 text more hstop h
    split
    · exact ihf ht.1 _ _ (.cons (by decide)) harg
    · exact (ihf ht.1).group harg

/-- The text of a well-named term scans into the tokens of the term. -/
theorem scan_render {t : Term} (ht : t.wellNamed = true) : scan t.render = .ok t.tokens := by
  have h := spells_write ht [] [] .nil .nil
  rw [List.append_nil] at h
  exact h.scan_ofList

end Term

/-! ### Judgements -/

/-- The tokens of the text of a judgement. -/
def Judgement.tokens (j : Judgement) : List Token :=
  group j.term.tokens ++ ⟨.colon, ""⟩ :: j.ty.tokens

/-- The text of a judgement about a well-named term and type scans into its tokens. -/
theorem Judgement.scan_render {j : Judgement} (hterm : j.term.wellNamed = true)
    (hty : j.ty.wellNamed = true) : scan j.render = .ok j.tokens := by
  have h := Ty.spells_write hty [] [] .nil .nil
  rw [List.append_nil] at h
  refine Scans.scan_ofList ((Term.spells_write hterm).group ?_)
  exact .blank (by decide) (.symbol (by decide) (.blank (by decide) h))

end Redex
