import Redex.Judgement

/-! # Phrases

    What a line spells: a judgement in the typed mode, and an expression in any other. -/

namespace Redex

/-- The meaning of a line. -/
inductive Phrase where
  | expression (term : Term)
  | judgement (j : Judgement)
deriving DecidableEq, Repr

namespace Phrase

/-- The phrase that a list of tokens spells. -/
def ofTokens (mode : Mode) (tokens : List Token) : Except ParseError Phrase :=
  if mode.isTyped then (Judgement.ofTokens mode tokens).map .judgement
  else (Term.ofTokens mode tokens).map .expression

/-- The expression of a phrase. -/
def term : Phrase → Term
  | .expression term => term
  | .judgement j => j.term

/-- The same phrase about another expression. -/
def withTerm (phrase : Phrase) (term : Term) : Phrase :=
  match phrase with
  | .expression _ => .expression term
  | .judgement j => .judgement { j with term }

/-- The text of a phrase. -/
def render : Phrase → String
  | .expression term => term.render
  | .judgement j => j.render

/-- Checks the names of a phrase; only judgements have a check. -/
def check : Phrase → Except NamingError Unit
  | .expression _ => .ok ()
  | .judgement j => j.check

end Phrase

end Redex
