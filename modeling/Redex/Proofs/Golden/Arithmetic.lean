import Redex.Proofs.Golden.Texts
import Redex.Proofs.Nameless.Numerals
import Redex.Proofs.Reducer.Completeness

/-! # Arithmetic on the texts of numerals

    The golden reductions add and multiply a few small numbers.  Here the same is shown of all
    numbers: under every ceiling that is high enough, a reducer brings the text of a successor, a
    sum or a product of numerals to the tree of the number it ought to be.

    The arguments at the end are free variables with the names of binders, `f` and `x`.  Which
    binders are renamed on the way does not matter: the nameless form of the result is known from
    `Nameless.evaluatesTo_sum` and its like, and a term of that form has no binders in it. -/

namespace Redex

/-! ### Terms of a given form -/

namespace Term

theorem eq_var_of_nameless {t : Term} {x : String} (h : t.nameless = .free x) : t = .var x := by
  cases t with
  | var y =>
    cases h
    rfl
  | missing | abs | app => cases h

theorem exists_of_nameless_eq_app {t : Term} {fn arg : Nameless} (h : t.nameless = .app fn arg) :
    ∃ fn' arg', t = .app fn' arg' ∧ fn'.nameless = fn ∧ arg'.nameless = arg := by
  cases t with
  | app fn' arg' =>
    cases h
    exact ⟨fn', arg', rfl, rfl, rfl⟩
  | missing | var | abs => cases h

end Term

namespace Golden

open Term

/-- The form of repeated application, which has no binders, leaves no choice of names. -/
theorem eq_bodyTerm_of_nameless {t : Term} {n : Nat}
    (h : t.nameless = (Nameless.app (.free "f"))^[n] (.free "x")) : t = bodyTerm n := by
  induction n generalizing t with
  | zero => exact eq_var_of_nameless h
  | succ n ih =>
    rw [Function.iterate_succ_apply'] at h
    obtain ⟨fn, arg, rfl, hfn, harg⟩ := exists_of_nameless_eq_app h
    rw [eq_var_of_nameless hfn, ih harg, bodyTerm, bodyTerm, Function.iterate_succ_apply']

theorem namelessIn_bodyTerm (env : Env) (n : Nat) :
    (bodyTerm n).namelessIn env = (Nameless.app (env "f"))^[n] (env "x") := by
  have hstep : Function.Semiconj (namelessIn env) (app (var "f")) (Nameless.app (env "f")) :=
    fun _ => rfl
  exact (hstep.iterate_right n).eq (var "x")

theorem nameless_numeralTerm (n : Nat) : (numeralTerm n).nameless = .numeral n := by
  simp only [numeralTerm, nameless, namelessIn, namelessIn_bodyTerm]
  rfl

/-! ### Computation -/

/-- The text is read as a term, which every reducer brings to the tree of the number's own text
    if its ceiling is not too low. -/
def Computes (text : String) (number : Nat) : Prop :=
  ReadFrom (churchBody number) (bodyTerm number) ∧
  ∃ t, ReadFrom text t ∧ ∃ least : Int, ∀ (r : Reducer) (ceiling : Int), least ≤ ceiling →
    ((r.withCeiling ceiling).reduce t).1 = .ok (bodyTerm number)

/-- A term that evaluates to a numeral applies `f` to `x` as often as the numeral says. -/
theorem computes_of_evaluatesTo {text : String} {t : Term} {number : Nat}
    (htext : SpellsTerm text (app (app t (var "f")) (var "x")))
    (heval : Nameless.EvaluatesTo t.nameless (.numeral number)) : Computes text number := by
  obtain ⟨v, c, happlied⟩ := heval.numeral_app (.free "f") (.free "x")
  refine ⟨(spellsTerm_churchBody number).readFrom, _, htext.readFrom, v, ?_⟩
  intro r ceiling hle
  obtain ⟨n, returned, form⟩ :=
    r.exists_reduce_of_evaluates (t := app (app t (var "f")) (var "x")) happlied hle
  rw [returned, eq_bodyTerm_of_nameless form]

theorem spellsItems_fx : SpellsItems "f x" [var "f", var "x"] :=
  (spellsOperand_var "f").cons (spellsOperand_var "x").single

section Operation

variable {text : String} {op : Term} (hop : SpellsOperand text op)
include hop

/-- An operation on one numeral. -/
theorem computes_unary (n : Nat) {number : Nat}
    (heval : Nameless.EvaluatesTo (.app op.nameless (.numeral n)) (.numeral number)) :
    Computes (text ++ " " ++ church n ++ " f x") number := by
  have htext : text ++ " " ++ church n ++ " f x" =
      text ++ " " ++ (church n ++ " " ++ "f x") := by
    simp only [String.append_assoc]
    rfl
  rw [← nameless_numeralTerm] at heval
  rw [htext]
  exact computes_of_evaluatesTo (hop.cons ((spellsOperand_church n).cons spellsItems_fx)).term heval

/-- An operation on two numerals. -/
theorem computes_binary (m n : Nat) {number : Nat}
    (heval : Nameless.EvaluatesTo (.app (.app op.nameless (.numeral m)) (.numeral n))
      (.numeral number)) :
    Computes (text ++ " " ++ church m ++ " " ++ church n ++ " f x") number := by
  have htext : text ++ " " ++ church m ++ " " ++ church n ++ " f x" =
      text ++ " " ++ (church m ++ " " ++ (church n ++ " " ++ "f x")) := by
    simp only [String.append_assoc]
    rfl
  rw [← nameless_numeralTerm, ← nameless_numeralTerm] at heval
  rw [htext]
  exact computes_of_evaluatesTo (hop.cons ((spellsOperand_church m).cons
    ((spellsOperand_church n).cons spellsItems_fx))).term heval

end Operation

/-! ### Successor, sum and product -/

/-- The successor `λn.λf.λx.f (n f x)`. -/
def successorTerm : Term :=
  abs "n" .missing (abs "f" .missing (abs "x" .missing
    (app (var "f") (app (app (var "n") (var "f")) (var "x")))))

/-- The sum `λm.λn.λf.λx.m f (n f x)`. -/
def sumTerm : Term :=
  abs "m" .missing (abs "n" .missing (abs "f" .missing (abs "x" .missing
    (app (app (var "m") (var "f")) (app (app (var "n") (var "f")) (var "x"))))))

/-- The product `λm.λn.λf.m (n f)`. -/
def productTerm : Term :=
  abs "m" .missing (abs "n" .missing (abs "f" .missing
    (app (var "m") (app (var "n") (var "f")))))

theorem spellsOperand_nfx :
    SpellsOperand "(n f x)" (app (app (var "n") (var "f")) (var "x")) :=
  ((spellsOperand_var "n").cons spellsItems_fx).term.group

theorem spellsOperand_successorTerm : SpellsOperand "(λn.λf.λx.f (n f x))" successorTerm := by
  have hbody := ((spellsOperand_var "f").cons spellsOperand_nfx.single).term
  exact (((hbody.abs "x").abs "f").abs "n").group

theorem spellsOperand_sumTerm : SpellsOperand "(λm.λn.λf.λx.m f (n f x))" sumTerm := by
  have hargs := (spellsOperand_var "f").cons spellsOperand_nfx.single
  have hbody := ((spellsOperand_var "m").cons hargs).term
  exact ((((hbody.abs "x").abs "f").abs "n").abs "m").group

theorem spellsOperand_productTerm : SpellsOperand "(λm.λn.λf.m (n f))" productTerm := by
  have harg := ((spellsOperand_var "n").cons (spellsOperand_var "f").single).term.group
  have hbody := ((spellsOperand_var "m").cons harg.single).term
  exact (((hbody.abs "f").abs "n").abs "m").group

/-- The successor of every number, and the sum and the product of every two numbers, are
    computed from their texts. -/
theorem computes_arithmetic (m n : Nat) :
    Computes ("(λn.λf.λx.f (n f x)) " ++ church n ++ " f x") (n + 1) ∧
    Computes ("(λm.λn.λf.λx.m f (n f x)) " ++ church m ++ " " ++ church n ++ " f x") (m + n) ∧
    Computes ("(λm.λn.λf.m (n f)) " ++ church m ++ " " ++ church n ++ " f x") (m * n) := by
  refine ⟨?_, ?_, ?_⟩
  · exact computes_unary spellsOperand_successorTerm n (Nameless.evaluatesTo_successor n)
  · exact computes_binary spellsOperand_sumTerm m n (Nameless.evaluatesTo_sum m n)
  · exact computes_binary spellsOperand_productTerm m n (Nameless.evaluatesTo_product m n)

end Golden

end Redex
