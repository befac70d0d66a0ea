import Redex.Proofs.Token.Cuts
import Redex.Ty.Parser

/-! # The grammar of types

    A type is a sequence of operands with arrows in between, read from the right; an operand
    is a base type or a type in parentheses.  The parser reads exactly the types of this
    grammar (`ofTokens_eq_ok_iff`). -/

namespace Redex.Ty

open Token

mutual

/-- The tokens spell the type. -/
inductive Derives : List Token → Ty → Prop where
  | operand {tokens : List Token} {ty : Ty} :
      Operand tokens ty → Derives tokens ty
  | arrow {tokens rest : List Token} {source target : Ty} (text : String) :
      Operand tokens source → Derives rest target →
      Derives (tokens ++ ⟨.arrow, text⟩ :: rest) (.arrow source target)

/-- The tokens spell the type as an operand of an arrow. -/
inductive Operand : List Token → Ty → Prop where
  | base (name : String) : Operand [⟨.upper, name⟩] (.base name)
  | group {inside : List Token} {ty : Ty} (text text' : String) :
      Derives inside ty → Operand (⟨.lparen, text⟩ :: (inside ++ [⟨.rparen, text'⟩])) ty

end

mutual

theorem Derives.balanced {tokens : List Token} {ty : Ty} : Derives tokens ty → Balanced tokens
  | .operand h => h.balanced
  | .arrow _ hsource htarget =>
    hsource.balanced.append (.cons rfl htarget.balanced)

theorem Operand.balanced {tokens : List Token} {ty : Ty} : Operand tokens ty → Balanced tokens
  | .base _ => .single rfl
  | .group text text' h => h.balanced.group text text'

end

/-! ### What the parser reads -/

theorem ofTokensFrom_upper (first : Bool) (name : String) (rest : List Token) :
    ofTokensFrom first (⟨.upper, name⟩ :: rest) = ofOperand (.base name) rest := by
  rw [ofTokensFrom]

theorem ofTokensFrom_lparen_eq_ok_iff {first : Bool} {text : String} {rest : List Token}
    {ty : Ty} :
    ofTokensFrom first (⟨.lparen, text⟩ :: rest) = .ok ty ↔
      ∃ inside behind operand, groupCut 0 rest = some (inside, behind) ∧
        ofTokens inside = .ok operand ∧ ofOperand operand behind = .ok ty := by
  rw [ofTokensFrom]
  simp only [ofTokens]
  split
  · rename_i hcut
    simp [hcut]
  · rename_i inside behind hcut
    cases hinside : ofTokensFrom true inside <;> grind

/-- A type starts with a base type or with a group. -/
theorem exists_of_ofTokensFrom {first : Bool} {tokens : List Token} {ty : Ty}
    (h : ofTokensFrom first tokens = .ok ty) :
    ∃ kind text rest, tokens = ⟨kind, text⟩ :: rest ∧ (kind = .upper ∨ kind = .lparen) := by
  cases tokens with
  | nil => simp [ofTokensFrom] at h
  | cons token rest =>
    obtain ⟨kind, text⟩ := token
    cases kind <;> simp_all [ofTokensFrom]

theorem ofOperand_eq_ok_iff {operand ty : Ty} {tokens : List Token} :
    ofOperand operand tokens = .ok ty ↔
      (tokens = [] ∧ ty = operand) ∨
      ∃ text rest target, tokens = ⟨.arrow, text⟩ :: rest ∧
        ofTokensFrom false rest = .ok target ∧ ty = .arrow operand target := by
  cases tokens with
  | nil => grind [ofOperand]
  | cons token rest =>
    obtain ⟨kind, text⟩ := token
    cases kind with
    | arrow =>
      rw [ofOperand]
      cases hrest : ofTokensFrom false rest <;> grind [Except.map]
    | _ => simp [ofOperand]

/-! ### The parser and the grammar -/

mutual

/-- What the parser reads is spelled in the grammar. -/
theorem derives_of_ofTokensFrom {first : Bool} {tokens : List Token} {ty : Ty}
    (h : ofTokensFrom first tokens = .ok ty) : Derives tokens ty := by
  obtain ⟨kind, text, rest, rfl, rfl | rfl⟩ := exists_of_ofTokensFrom h
  · rw [ofTokensFrom_upper] at h
    exact derives_append_of_ofOperand (.base text) h
  · obtain ⟨inside, behind, operand, hcut, hinside, hbehind⟩ :=
      ofTokensFrom_lparen_eq_ok_iff.1 h
    have hlength := groupCut_length hcut
    obtain ⟨text', rfl⟩ := exists_of_groupCut hcut
    have hgroup := Operand.group text text' (derives_of_ofTokensFrom hinside)
    simpa using derives_append_of_ofOperand hgroup hbehind
termination_by tokens.length

theorem derives_append_of_ofOperand {operand ty : Ty} {tokens rest : List Token}
    (hoperand : Operand tokens operand) (h : ofOperand operand rest = .ok ty) :
    Derives (tokens ++ rest) ty := by
  obtain ⟨rfl, rfl⟩ | ⟨text, rest, target, rfl, hrest, rfl⟩ := ofOperand_eq_ok_iff.1 h
  · rw [List.append_nil]
    exact .operand hoperand
  · exact .arrow text hoperand (derives_of_ofTokensFrom hrest)
termination_by rest.length

end

mutual

/-- What is spelled in the grammar is read by the parser. -/
theorem Derives.ofTokensFrom_eq {tokens : List Token} {ty : Ty} (first : Bool) :
    Derives tokens ty → ofTokensFrom first tokens = .ok ty
  | .operand h => by
    have hempty : ofOperand ty [] = .ok ty := ofOperand_eq_ok_iff.2 (.inl ⟨rfl, rfl⟩)
    have hread := h.ofTokensFrom_append first hempty
    rwa [List.append_nil] at hread
  | .arrow text hsource htarget => by
    have hrest := htarget.ofTokensFrom_eq false
    exact hsource.ofTokensFrom_append first
      (ofOperand_eq_ok_iff.2 (.inr ⟨text, _, _, rfl, hrest, rfl⟩))

theorem Operand.ofTokensFrom_append {tokens rest : List Token} {operand ty : Ty} (first : Bool)
    (hrest : ofOperand operand rest = .ok ty) :
    Operand tokens operand → ofTokensFrom first (tokens ++ rest) = .ok ty
  | .base name => by rwa [List.singleton_append, ofTokensFrom_upper]
  | .group text text' hinside => by
    have hcut := hinside.balanced.groupCut_rparen text' rest
    have hread := hinside.ofTokensFrom_eq true
    simp only [List.cons_append, List.append_assoc, List.nil_append]
    exact ofTokensFrom_lparen_eq_ok_iff.2 ⟨_, rest, operand, hcut, hread, hrest⟩

end

/-- The parser reads exactly the types of the grammar. -/
theorem ofTokens_eq_ok_iff {tokens : List Token} {ty : Ty} :
    ofTokens tokens = .ok ty ↔ Derives tokens ty :=
  ⟨derives_of_ofTokensFrom, fun h => h.ofTokensFrom_eq true⟩

theorem ne_nil_of_ofTokens {tokens : List Token} {ty : Ty} (h : ofTokens tokens = .ok ty) :
    tokens ≠ [] := by
  rintro rfl
  rw [ofTokens, ofTokensFrom] at h
  cases h

theorem kind_ne_colon_of_ofTokens {tokens : List Token} {ty : Ty} (h : ofTokens tokens = .ok ty) :
    ∀ token ∈ tokens, token.kind ≠ .colon :=
  (ofTokens_eq_ok_iff.1 h).balanced.kind_ne_colon

/-! ### Behind a hat -/

/-- What is cut off behind a hat, if it can be read, is an operand. -/
theorem operand_of_annotationCut {tokens inside rest : List Token} {ty : Ty}
    (hcut : annotationCut 0 tokens = .ok (inside, rest)) (h : ofTokens inside = .ok ty) :
    tokens = inside ++ rest ∧ Operand inside ty := by
  obtain ⟨token, _, tokens, rfl, rfl⟩ := exists_of_annotationCut hcut
  obtain ⟨kind, text, _, hinside, rfl | rfl⟩ := exists_of_ofTokensFrom h
  · cases hinside
    cases hcut
    rw [ofTokens, ofTokensFrom_upper, ofOperand] at h
    cases h
    exact ⟨rfl, .base text⟩
  · cases hinside
    obtain ⟨inside, text', rfl, hgroup, hty⟩ := annotationCut_lparen hcut
    rw [hty] at h ⊢
    refine ⟨by simp, ?_⟩
    -- the type parser cuts at the same parenthesis, and nothing is left behind it
    obtain ⟨_, _, operand, hgroup', hinside, hbehind⟩ := ofTokensFrom_lparen_eq_ok_iff.1 h
    cases (groupCut_append hgroup text' []).symm.trans hgroup'
    rw [ofOperand] at hbehind
    cases hbehind
    exact .group text text' (ofTokens_eq_ok_iff.1 hinside)

/-- An operand is cut off behind a hat as a whole. -/
theorem Operand.annotationCut_append {tokens : List Token} {ty : Ty} (h : Operand tokens ty)
    (rest : List Token) : annotationCut 0 (tokens ++ rest) = .ok (tokens, rest) := by
  cases h with
  | base name => rfl
  | group text text' hinside =>
    simpa using hinside.balanced.annotationCut_group text text' rest

end Redex.Ty
