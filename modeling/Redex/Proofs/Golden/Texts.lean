import Mathlib.Logic.Function.Iterate
import Redex.Golden
import Redex.Proofs.Phrase.Spelling
import Redex.Proofs.Term.Grammar

/-! # Reading the texts of numerals

    The texts of the golden reductions are not printed from terms: they have parentheses around
    single variables, and none around the function of an application.  Still they are put
    together from the texts of their parts, and there is a rule for each way to do so: names,
    groups, neighbours with a space between them, and binders with a dot.

    Each rule says that the new text scans and that its tokens spell the new term in the grammar.
    So the text of a numeral is read as the tree that it shows, for every number. -/

namespace Redex.Term

open Token Text

/-! ### Texts of terms -/

/-- The text is read as the term. -/
def ReadFrom (text : String) (t : Term) : Prop :=
  ∃ tokens, scan text = .ok tokens ∧ ofTokens .untyped tokens = .ok t

/-- The text begins with something that may stand behind a dot. -/
def MayFollowDot (text : String) : Prop :=
  ∃ c rest, text.toList = c :: rest ∧ isBlank c = false ∧ c ≠ ':'

theorem MayFollowDot.append {text : String} (h : MayFollowDot text) (more : String) :
    MayFollowDot (text ++ more) := by
  obtain ⟨c, rest, htext, hblank, hcolon⟩ := h
  exact ⟨c, rest ++ more.toList, by simp [htext], hblank, hcolon⟩

/-- The text spells a sequence of items. -/
structure SpellsItems (text : String) (items : List Term) : Prop where
  exists_tokens : ∃ tokens, Spells (text.toList ++ ·) tokens ∧ Items .untyped tokens items
  mayFollowDot : MayFollowDot text

/-- The text spells an item that other items may follow. -/
structure SpellsOperand (text : String) (t : Term) : Prop where
  exists_tokens : ∃ tokens, Spells (text.toList ++ ·) tokens ∧
    ∀ rest items, Items .untyped rest items → Items .untyped (tokens ++ rest) (t :: items)
  mayFollowDot : MayFollowDot text

/-- The text spells a term. -/
structure SpellsTerm (text : String) (t : Term) : Prop where
  exists_tokens : ∃ tokens, Spells (text.toList ++ ·) tokens ∧ Derives .untyped tokens t
  mayFollowDot : MayFollowDot text

theorem SpellsTerm.readFrom {text : String} {t : Term} (h : SpellsTerm text t) :
    ReadFrom text t := by
  obtain ⟨tokens, hspells, hderives⟩ := h.exists_tokens
  have hscans : Scans text.toList tokens := by
    simpa using hspells [] [] .nil .nil
  exact ⟨tokens, hscans 1, hderives.ofTokens_eq⟩

/-! ### Rules -/

theorem spellsOperand_var (name : String) (hname : isVariableName name = true := by decide) :
    SpellsOperand name (.var name) := by
  constructor
  · refine ⟨[⟨.lower, name⟩], ?_, fun rest items hitems => .var name hitems⟩
    intro text more hstop h
    exact .variable hname hstop h
  · obtain ⟨c, rest, htext, hstart⟩ := write_eq_cons (t := .var name) hname []
    exact ⟨c, rest, by simpa [write] using htext, hstart⟩

theorem SpellsTerm.group {text : String} {t : Term} (h : SpellsTerm text t) :
    SpellsOperand ("(" ++ text ++ ")") t := by
  obtain ⟨tokens, hspells, hderives⟩ := h.exists_tokens
  constructor
  · refine ⟨Token.group tokens, ?_, fun rest items hitems => ?_⟩
    · intro more others _ hmore
      simpa using hspells.group hmore
    · simpa [Token.group] using Items.group "" "" hderives hitems
  · exact ⟨'(', text.toList ++ [')'], by simp, by decide, by decide⟩

theorem SpellsOperand.single {text : String} {t : Term} (h : SpellsOperand text t) :
    SpellsItems text [t] := by
  obtain ⟨tokens, hspells, hitems⟩ := h.exists_tokens
  have hsingle := hitems [] [] .nil
  rw [List.append_nil] at hsingle
  exact ⟨⟨tokens, hspells, hsingle⟩, h.mayFollowDot⟩

/-- A space between an item and those behind it ends the last name of the item. -/
theorem SpellsOperand.cons {text text' : String} {t : Term} {items : List Term}
    (h : SpellsOperand text t) (h' : SpellsItems text' items) :
    SpellsItems (text ++ " " ++ text') (t :: items) := by
  obtain ⟨tokens, hspells, hitems⟩ := h.exists_tokens
  obtain ⟨tokens', hspells', hitems'⟩ := h'.exists_tokens
  refine ⟨⟨tokens ++ tokens', ?_, hitems _ _ hitems'⟩, ?_⟩
  · intro more others hstop hmore
    have hbehind : Scans (' ' :: (text'.toList ++ more)) (tokens' ++ others) :=
      .blank (by decide) (hspells' more others hstop hmore)
    simpa using hspells _ _ (.cons (by decide)) hbehind
  · rw [String.append_assoc]
    exact h.mayFollowDot.append _

theorem SpellsItems.term {text : String} {first : Term} {others : List Term}
    (h : SpellsItems text (first :: others)) : SpellsTerm text (others.foldl .app first) := by
  obtain ⟨tokens, hspells, hitems⟩ := h.exists_tokens
  exact ⟨⟨tokens, hspells, .apply hitems⟩, h.mayFollowDot⟩

theorem SpellsTerm.abs {text : String} {t : Term} (h : SpellsTerm text t) (binder : String)
    (hbinder : isBinderName binder = true := by decide) :
    SpellsTerm ("λ" ++ binder ++ "." ++ text) (.abs binder .missing t) := by
  obtain ⟨tokens, hspells, hderives⟩ := h.exists_tokens
  obtain ⟨c, rest, htext, hblank, hcolon⟩ := h.mayFollowDot
  constructor
  · refine ⟨⟨.lambda, binder⟩ :: ⟨.dot, ""⟩ :: tokens, ?_, ?_⟩
    · intro more others hstop hmore
      have hbody := hspells more others hstop hmore
      rw [htext] at hbody
      simpa [htext] using Scans.binder hbinder (by decide) (hbody.dot hblank hcolon)
    · exact .apply (.abs binder "" (.absent rfl) hderives)
  · exact ⟨'λ', binder.toList ++ '.' :: text.toList, by simp, by decide, by decide⟩

end Redex.Term

/-! ### Numerals -/

namespace Redex.Golden

open Term

/-- The variable `f`, applied a number of times to the variable `x`. -/
def bodyTerm (n : Nat) : Term :=
  (app (var "f"))^[n] (var "x")

/-- The numeral of a number. -/
def numeralTerm (n : Nat) : Term :=
  abs "f" .missing (abs "x" .missing (bodyTerm n))

theorem churchBody_succ (n : Nat) : churchBody (n + 1) = "f (" ++ churchBody n ++ ")" := by
  have hopen : String.join (List.replicate (n + 1) "f (") =
      "f (" ++ String.join (List.replicate n "f (") := by
    rw [List.replicate_succ, String.join_cons]
  have hclose : String.join (List.replicate (n + 1) ")") =
      String.join (List.replicate n ")") ++ ")" := by
    rw [List.replicate_succ', String.join_append]
    rfl
  simp only [churchBody, hopen, hclose, String.append_assoc]

/-- The text of `f` applied `n` times to `x` is read as such. -/
theorem spellsTerm_churchBody (n : Nat) : SpellsTerm (churchBody n) (bodyTerm n) := by
  induction n with
  | zero => exact (spellsOperand_var "x").single.term
  | succ n ih =>
    have htext : churchBody (n + 1) = "f" ++ " " ++ ("(" ++ churchBody n ++ ")") := by
      rw [churchBody_succ, ← String.append_assoc, ← String.append_assoc]
      rfl
    rw [htext, bodyTerm, Function.iterate_succ_apply']
    exact ((spellsOperand_var "f").cons ih.group.single).term

theorem spellsOperand_church (n : Nat) : SpellsOperand (church n) (numeralTerm n) := by
  have htext : church n =
      "(" ++ ("λ" ++ "f" ++ "." ++ ("λ" ++ "x" ++ "." ++ churchBody n)) ++ ")" := by
    simp only [← String.append_assoc]
    rfl
  rw [htext]
  exact (((spellsTerm_churchBody n).abs "x").abs "f").group

end Redex.Golden
