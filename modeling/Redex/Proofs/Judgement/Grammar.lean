import Mathlib.Data.List.Basic
import Redex.Proofs.Phrase.Reading

/-! # The grammar of types and judgements

    A type is a row of operands with arrows in between, and means the function type that
    associates to the right.  A judgement is an expression and a type with a colon in between.
    The parsers read exactly these (`ofTokens_iff_grammar`).

    The judgement parser looks at the number of tokens and of colons before it reads either side.
    An expression or a type is not empty and has no colon in it, so what can be read on both
    sides passes these checks, and has no other colon to be divided at. -/

namespace Redex

open Token

/-! ### Rows of operands -/

namespace Ty

/-- The tokens are operands with an arrow between neighbours: the sources in order, and the target
    as the last. -/
inductive Operands : List Token → List Ty → Ty → Prop where
  | last {tokens : List Token} {target : Ty} (h : Operand tokens target) :
      Operands tokens [] target
  | arrow {tokens rest : List Token} {source target : Ty} {sources : List Ty} (text : String)
      (h : Operand tokens source) (hrest : Operands rest sources target) :
      Operands (tokens ++ ⟨.arrow, text⟩ :: rest) (source :: sources) target

theorem Operands.derives {tokens : List Token} {sources : List Ty} {target : Ty}
    (h : Operands tokens sources target) : Derives tokens (sources.foldr .arrow target) := by
  induction h with
  | last h => exact .operand h
  | arrow text h _ ih => exact .arrow text h ih

theorem Derives.exists_operands {tokens : List Token} {ty : Ty} (h : Derives tokens ty) :
    ∃ sources target, Operands tokens sources target ∧ ty = sources.foldr .arrow target := by
  -- the types inside an operand do not matter here, so the induction is on the tokens behind it
  induction hlength : tokens.length using Nat.strongRecOn generalizing tokens ty with
  | ind length ih =>
    cases h with
    | operand h => exact ⟨[], ty, .last h, rfl⟩
    | @arrow first rest source target text hsource htarget =>
      have hlt : rest.length < length := by
        simp only [← hlength, List.length_append, List.length_cons]
        omega
      obtain ⟨sources, target, hrest, rfl⟩ := ih rest.length hlt htarget rfl
      exact ⟨source :: sources, target, .arrow text hsource hrest, rfl⟩

/-- The parser reads exactly the rows of operands, as right-associated function types. -/
theorem ofTokens_eq_ok_iff_operands {tokens : List Token} {ty : Ty} :
    ofTokens tokens = .ok ty ↔
      ∃ sources target, Operands tokens sources target ∧ ty = sources.foldr .arrow target := by
  rw [ofTokens_eq_ok_iff]
  constructor
  · exact Derives.exists_operands
  · rintro ⟨sources, target, h, rfl⟩
    exact h.derives

end Ty

/-! ### Colons -/

namespace Judgement

theorem ofTokens_eq_ok_iff {mode : Mode} {tokens : List Token} {j : Judgement} :
    ofTokens mode tokens = .ok j ↔
      ∃ left text right, tokens = left ++ ⟨.colon, text⟩ :: right ∧
        Term.ofTokens mode left = .ok j.term ∧ Ty.ofTokens right = .ok j.ty := by
  constructor
  · exact exists_of_ofTokens
  · rintro ⟨left, text, right, rfl, hterm, hty⟩
    exact ofTokens_append_colon text hterm hty

section Colon

variable {mode : Mode} {left right : List Token} {t : Term} {ty : Ty}

theorem countP_colon (text : String) (hterm : Term.ofTokens mode left = .ok t)
    (hty : Ty.ofTokens right = .ok ty) :
    (left ++ ⟨.colon, text⟩ :: right : List Token).countP (·.kind == .colon) = 1 := by
  have hleft : left.countP (·.kind == .colon) = 0 := by
    rw [List.countP_eq_zero]
    simpa using Term.kind_ne_colon_of_ofTokens hterm
  have hright : right.countP (·.kind == .colon) = 0 := by
    rw [List.countP_eq_zero]
    simpa using Ty.kind_ne_colon_of_ofTokens hty
  rw [List.countP_append, List.countP_cons, hleft, hright]
  rfl

/-- The colon between an expression and a type is the only one to divide the tokens at. -/
theorem divided_once {left' right' : List Token} {text text' : String}
    (hterm : Term.ofTokens mode left = .ok t) (hty : Ty.ofTokens right = .ok ty)
    (h : left ++ ⟨.colon, text⟩ :: right = left' ++ ⟨.colon, text'⟩ :: right') :
    left' = left ∧ text' = text ∧ right' = right := by
  have hleft : ⟨.colon, text'⟩ ∉ left := fun hmem =>
    Term.kind_ne_colon_of_ofTokens hterm _ hmem rfl
  have hright : ⟨.colon, text'⟩ ∉ right := fun hmem =>
    Ty.kind_ne_colon_of_ofTokens hty _ hmem rfl
  obtain ⟨rfl, hcolon, rfl⟩ := (List.append_cons_inj_of_notMem hleft hright).1 h
  cases hcolon
  exact ⟨rfl, rfl, rfl⟩

end Colon

end Judgement

/-! ### The parsers and the grammar -/

/-- The type parser accepts exactly the rows of operands, and returns the function type that
    associates to the right.  The judgement parser accepts exactly an expression and a type with a
    colon in between, and returns the two: whatever can be divided so has the number of tokens
    and of colons that it asks for, and cannot be divided at another colon. -/
theorem ofTokens_iff_grammar (mode : Mode) (tokens : List Token) :
    (∀ ty, Ty.ofTokens tokens = .ok ty ↔
      ∃ sources target, Ty.Operands tokens sources target ∧ ty = sources.foldr .arrow target) ∧
    (∀ t ty, Judgement.ofTokens mode tokens = .ok ⟨t, ty⟩ ↔
      ∃ left text right, tokens = left ++ ⟨.colon, text⟩ :: right ∧
        Term.ofTokens mode left = .ok t ∧ Ty.ofTokens right = .ok ty) ∧
    ∀ left text right t ty, tokens = left ++ ⟨.colon, text⟩ :: right →
      Term.ofTokens mode left = .ok t → Ty.ofTokens right = .ok ty →
      3 ≤ tokens.length ∧ tokens.countP (·.kind == .colon) = 1 ∧
      ∀ left' text' right', tokens = left' ++ ⟨.colon, text'⟩ :: right' →
        left' = left ∧ text' = text ∧ right' = right := by
  refine ⟨fun ty => Ty.ofTokens_eq_ok_iff_operands, fun t ty => Judgement.ofTokens_eq_ok_iff, ?_⟩
  rintro left text right t ty rfl hterm hty
  refine ⟨Judgement.three_le_length text hterm hty, Judgement.countP_colon text hterm hty, ?_⟩
  intro left' text' right' h
  exact Judgement.divided_once hterm hty h

/-- In `x : A -> (B -> C) -> D` the second operand is a function type, and the arrows outside the
    parentheses associate to the right. -/
theorem ofTokens_iff_grammar_three_operands :
    Judgement.ofTokens .typed
        [⟨.lower, "x"⟩, ⟨.colon, ""⟩, ⟨.upper, "A"⟩, ⟨.arrow, ""⟩, ⟨.lparen, ""⟩, ⟨.upper, "B"⟩,
          ⟨.arrow, ""⟩, ⟨.upper, "C"⟩, ⟨.rparen, ""⟩, ⟨.arrow, ""⟩, ⟨.upper, "D"⟩] =
        .ok ⟨.var "x", .arrow (.base "A") (.arrow (.arrow (.base "B") (.base "C")) (.base "D"))⟩ ∧
      ∀ (left right : List Token) (text : String),
        left ++ ⟨.colon, text⟩ :: right =
          [⟨.lower, "x"⟩, ⟨.colon, ""⟩, ⟨.upper, "A"⟩, ⟨.arrow, ""⟩, ⟨.lparen, ""⟩,
            ⟨.upper, "B"⟩, ⟨.arrow, ""⟩, ⟨.upper, "C"⟩, ⟨.rparen, ""⟩, ⟨.arrow, ""⟩,
            ⟨.upper, "D"⟩] →
        left = [⟨.lower, "x"⟩] := by
  have hterm : Term.ofTokens .typed [⟨.lower, "x"⟩] = .ok (.var "x") :=
    (Term.Derives.apply (.var "x" .nil)).ofTokens_eq
  have hgroup : Ty.Operand _ _ :=
    .group "" "" (.arrow "" (.base "B") (.operand (.base "C")))
  have hrow : Ty.Operands _ _ _ :=
    .arrow "" (.base "A") (.arrow "" hgroup (.last (.base "D")))
  have hty := ((ofTokens_iff_grammar .typed _).1 _).2 ⟨_, _, hrow, rfl⟩
  refine ⟨((ofTokens_iff_grammar .typed _).2.1 _ _).2 ⟨_, "", _, rfl, hterm, hty⟩, ?_⟩
  intro left right text h
  exact (((ofTokens_iff_grammar .typed _).2.2 _ "" _ _ _ rfl hterm hty).2.2 _ _ _ h.symm).1

end Redex
