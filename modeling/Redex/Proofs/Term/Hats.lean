import Redex.Proofs.Term.Erasure
import Redex.Proofs.Term.Grammar

/-! # Expressions without hats

    A typed expression becomes a plain one when every hat is taken out of its tokens, together
    with the annotation behind it: a base type, or all up to the parenthesis that closes a
    group.  What the plain tokens spell is the expression without its annotations.

    The parser cuts at other places then, since the parentheses of annotations are no longer
    there to be counted.  The grammar does not: each rule of the typed mode is one of the
    untyped mode without the hat (`Derives.strips`). -/

namespace Redex

namespace Token

/-! ### Stripping -/

/-- The number of tokens that an annotation takes: one for a base type, and for a group all up
    to the parenthesis that closes it. -/
def annotationLength : List Token → Nat
  | ⟨.upper, _⟩ :: _ => 1
  | ⟨.lparen, _⟩ :: tokens =>
    match groupCut 0 tokens with
    | some (inside, _) => inside.length + 2
    | none => 0
  | _ => 0

/-- The tokens without hats and annotations, where the first `skip` ones are the rest of an
    annotation. -/
def stripFrom : Nat → List Token → List Token
  | _, [] => []
  | skip + 1, _ :: tokens => stripFrom skip tokens
  | 0, token :: tokens =>
    if token.kind = .hat then stripFrom (annotationLength tokens) tokens
    else token :: stripFrom 0 tokens

/-- The tokens without hats and annotations. -/
def stripHats (tokens : List Token) : List Token :=
  stripFrom 0 tokens

theorem stripFrom_length_append (skipped tokens : List Token) :
    stripFrom skipped.length (skipped ++ tokens) = stripHats tokens := by
  induction skipped with
  | nil => rfl
  | cons token skipped ih => exact ih

/-- The tokens are stripped to `bare`, whatever follows them. -/
def Strips (tokens bare : List Token) : Prop :=
  ∀ more, stripHats (tokens ++ more) = bare ++ stripHats more

namespace Strips

theorem nil : Strips [] [] :=
  fun _ => rfl

theorem append {tokens bare tokens' bare' : List Token} (h : Strips tokens bare)
    (h' : Strips tokens' bare') : Strips (tokens ++ tokens') (bare ++ bare') := by
  intro more
  rw [List.append_assoc, h, h', List.append_assoc]

/-- A token that is no hat stays. -/
theorem cons {token : Token} (htoken : token.kind ≠ .hat) {tokens bare : List Token}
    (h : Strips tokens bare) : Strips (token :: tokens) (token :: bare) := by
  intro more
  show (if token.kind = .hat then _ else _) = _
  rw [if_neg htoken]
  exact congrArg (token :: ·) (h more)

theorem group {inside bare : List Token} (text text' : String) (h : Strips inside bare) :
    Strips (⟨.lparen, text⟩ :: (inside ++ [⟨.rparen, text'⟩]))
      (⟨.lparen, text⟩ :: (bare ++ [⟨.rparen, text'⟩])) :=
  .cons (by simp) (h.append (.cons (by simp) .nil))

theorem dots {dots : List Token} (h : ∀ dot ∈ dots, dot.kind = .dot) : Strips dots dots := by
  induction dots with
  | nil => exact .nil
  | cons dot dots ih =>
    have hdot : dot.kind ≠ .hat := by
      rw [h dot (.head _)]
      simp
    exact .cons hdot (ih fun dot hmem => h dot (.tail _ hmem))

theorem stripHats_eq {tokens bare : List Token} (h : Strips tokens bare) :
    stripHats tokens = bare := by
  have hend := h []
  simpa [stripHats, stripFrom] using hend

end Strips

end Token

open Token

/-! ### Annotations -/

theorem Ty.Operand.annotationLength_append {tokens : List Token} {ty : Ty}
    (h : Ty.Operand tokens ty) (more : List Token) :
    annotationLength (tokens ++ more) = tokens.length := by
  cases h with
  | base name => rfl
  | @group inside _ text text' hinside =>
    simp [annotationLength, hinside.balanced.groupCut_rparen text' more]

namespace Term

theorem Annotation.strips {hat : List Token} {ty : Ty} (h : Annotation .typed hat ty) :
    Strips hat [] := by
  cases h with
  | absent h => cases h
  | @hat tokens _ _ text hoperand =>
    intro more
    show stripFrom (annotationLength (tokens ++ more)) (tokens ++ more) = stripHats more
    rw [hoperand.annotationLength_append, stripFrom_length_append]

/-! ### Expressions -/

theorem erase_foldl (first : Term) (others : List Term) :
    (others.foldl .app first).erase = (others.map erase).foldl .app first.erase := by
  induction others generalizing first with
  | nil => rfl
  | cons other others ih => exact ih (.app first other)

/-- What stands between a binder and its body in the untyped mode: nothing. -/
theorem annotation_untyped : Annotation .untyped [] .missing :=
  .absent rfl

mutual

/-- The stripped tokens of a typed expression spell the expression without its annotations. -/
theorem Derives.strips {tokens : List Token} {t : Term} :
    Derives .typed tokens t → ∃ bare, Strips tokens bare ∧ Derives .untyped bare t.erase
  | .apply hitems => by
    obtain ⟨bare, hstrips, hbare⟩ := hitems.strips
    rw [erase_foldl]
    exact ⟨bare, hstrips, .apply hbare⟩

theorem Items.strips {tokens : List Token} {items : List Term} :
    Items .typed tokens items →
      ∃ bare, Strips tokens bare ∧ Items .untyped bare (items.map erase)
  | .nil => ⟨[], .nil, .nil⟩
  | .var name hrest => by
    obtain ⟨bare, hstrips, hbare⟩ := hrest.strips
    exact ⟨_, .cons (by simp) hstrips, .var name hbare⟩
  | .group text text' hinside hrest => by
    obtain ⟨bare, hstrips, hbare⟩ := hinside.strips
    obtain ⟨bare', hstrips', hbare'⟩ := hrest.strips
    have hgroup := (hstrips.group text text').append hstrips'
    simp only [List.cons_append, List.append_assoc, List.nil_append] at hgroup
    exact ⟨_, hgroup, .group text text' hbare hbare'⟩
  | .dot text hrest => by
    obtain ⟨bare, hstrips, hbare⟩ := hrest.strips
    exact ⟨_, .cons (by simp) hstrips, .dot text hbare⟩
  | .abs binder text hhat hbody => by
    obtain ⟨bare, hstrips, hbare⟩ := hbody.strips
    have hdot : Strips (⟨.dot, text⟩ :: _) _ := .cons (by simp) hstrips
    exact ⟨_, .cons (by simp) (hhat.strips.append hdot),
      .abs binder text annotation_untyped hbare⟩
  | .shortAbs binder hhat hbody hrest => by
    obtain ⟨bare, hstrips, hbare⟩ := hbody.strips
    obtain ⟨bare', hstrips', hbare'⟩ := hrest.strips
    have hbinder := hhat.strips.append (hstrips.append hstrips')
    exact ⟨_, .cons (by simp) hbinder, .shortAbs binder annotation_untyped hbare hbare'⟩

theorem Short.strips {tokens : List Token} {t : Term} :
    Short .typed tokens t → ∃ bare, Strips tokens bare ∧ Short .untyped bare t.erase
  | .var name => ⟨_, .cons (by simp) .nil, .var name⟩
  | .group text text' hinside => by
    obtain ⟨bare, hstrips, hbare⟩ := hinside.strips
    exact ⟨_, hstrips.group text text', .group text text' hbare⟩
  | .abs binder hhat hdots hbody => by
    obtain ⟨bare, hstrips, hbare⟩ := hbody.strips
    have hbinder := hhat.annotation.strips.append ((Strips.dots hdots).append hstrips)
    exact ⟨_, .cons (by simp) hbinder, .abs binder (.absent rfl) hdots hbare⟩

end

/-- Where the typed parser reads an expression, the untyped parser reads the tokens without hats
    and annotations as the expression without its annotations. -/
theorem ofTokens_stripHats {tokens : List Token} {t : Term}
    (h : ofTokens .typed tokens = .ok t) :
    ofTokens .untyped (stripHats tokens) = .ok t.erase := by
  obtain ⟨bare, hstrips, hbare⟩ := (derives_of_ofTokens h).strips
  rw [hstrips.stripHats_eq]
  exact hbare.ofTokens_eq

/-- In `λx^(A -> A) λy^A . z w` the annotation of `x` has parentheses, and the short body of `x`
    ends with `z`; so it does in `λx λy . z w`. -/
theorem ofTokens_stripHats_short :
    ofTokens .typed
        [⟨.lambda, "x"⟩, ⟨.hat, ""⟩, ⟨.lparen, ""⟩, ⟨.upper, "A"⟩, ⟨.arrow, ""⟩, ⟨.upper, "A"⟩,
          ⟨.rparen, ""⟩, ⟨.lambda, "y"⟩, ⟨.hat, ""⟩, ⟨.upper, "A"⟩, ⟨.dot, ""⟩, ⟨.lower, "z"⟩,
          ⟨.lower, "w"⟩] =
        .ok (.app (.abs "x" (.arrow (.base "A") (.base "A")) (.abs "y" (.base "A") (.var "z")))
          (.var "w")) ∧
      ofTokens .untyped
        [⟨.lambda, "x"⟩, ⟨.lambda, "y"⟩, ⟨.dot, ""⟩, ⟨.lower, "z"⟩, ⟨.lower, "w"⟩] =
        .ok (.app (.abs "x" .missing (.abs "y" .missing (.var "z"))) (.var "w")) := by
  have hhat : Annotation .typed _ _ :=
    .hat rfl "" (.group "" "" (.arrow "" (.base "A") (.operand (.base "A"))))
  have hdot : ∀ dot ∈ [(⟨.dot, ""⟩ : Token)], dot.kind = .dot := by simp
  have hbody : Short .typed _ _ := .abs "y" (.hat rfl "" "A") hdot (.var "z")
  have hderives : Derives .typed _ _ := .apply (.shortAbs "x" hhat hbody (.var "w" .nil))
  exact ⟨hderives.ofTokens_eq, ofTokens_stripHats hderives.ofTokens_eq⟩

end Term

end Redex
