import Redex.Proofs.Reduction.Simulation
import Redex.Reducer

/-! # What a reducer computes

    A reduction is a function of the nameless form of its term.  If it returns, the result
    is in normal form, and its nameless form comes from that of the term by as many
    contractions as the statistics count (`reduce_isNormal_betaSteps`).  Terms that differ
    only in the names of bound variables have the same reduction up to such names
    (`reduce_alphaEq`). -/

namespace Redex

open Reduction

/-! ### Normal forms -/

/-- No application in the term has an abstraction for its function. -/
def Term.IsNormal : Term → Prop
  | .missing => True
  | .var _ => True
  | .abs _ _ body => body.IsNormal
  | .app fn arg => fn.isAbs = false ∧ fn.IsNormal ∧ arg.IsNormal

theorem Term.isNormal_of_namelessIn {t : Term} {env : Env}
    (h : (t.namelessIn env).IsNormal) : t.IsNormal := by
  induction t generalizing env with
  | missing => trivial
  | var x => trivial
  | abs x ty body ih => exact ih h
  | app fn arg ihf iha =>
    obtain ⟨hfn, hnormal, harg⟩ := h
    refine ⟨?_, ihf hnormal, iha harg⟩
    cases fn with
    | abs x ty body => exact absurd hfn (by simp [namelessIn, Nameless.isAbs])
    | _ => rfl

namespace Reducer

/-! ### Reductions of a reducer -/

/-- Whatever the state of a reducer, a reduction takes the course of the reduction of the
    nameless form. -/
theorem reduce_agrees (r : Reducer) (t : Term) :
    Agrees .free r.ceiling (.ofTerm t) ((r.reduce t).1, (r.reduce t).2.progress)
      (Nameless.visit r.ceiling r.ceiling t.nameless ⟨0, 0⟩) :=
  normalize_agrees r.ceiling t

/-- A result is in normal form, and as many contractions as were counted lead to it. -/
theorem reduce_isNormal_betaSteps (r : Reducer) (ceiling : Int) (t n : Term)
    (h : ((r.withCeiling ceiling).reduce t).1 = .ok n) :
    n.IsNormal ∧
      Nameless.BetaSteps ((r.withCeiling ceiling).reduce t).2.stats.beta
        t.nameless n.nameless := by
  have hagrees := reduce_agrees (r.withCeiling ceiling) t
  rcases hagrees.result_eq with ⟨n', hn', hsome⟩ | ⟨herror, hnone⟩
  · obtain rfl : n = n' := Except.ok.inj (h.symm.trans hn')
    obtain ⟨v, c, htally, heval⟩ :=
      Nameless.visit_evaluates (Prod.ext hsome hagrees.tally_eq)
    have hbeta : ((r.withCeiling ceiling).reduce t).2.stats.beta = c := by
      have hcount := congrArg Nameless.Tally.contractions htally
      simpa [Progress.tally, stats] using hcount
    rw [hbeta]
    exact ⟨Term.isNormal_of_namelessIn heval.isNormal, heval.betaSteps⟩
  · exact absurd (h.symm.trans herror) (by simp)

/-- In `(λx.λy.x) y` the inner binder has to give way. -/
theorem reduce_isNormal_betaSteps_capture :
    ((({} : Reducer).withCeiling 10).reduce
        (.app (.abs "x" .missing (.abs "y" .missing (.var "x"))) (.var "y"))).1 =
      .ok (.abs "y1" .missing (.var "y")) ∧
    (Term.abs "y1" .missing (.var "y")).IsNormal ∧
    Nameless.BetaSteps
      ((({} : Reducer).withCeiling 10).reduce
        (.app (.abs "x" .missing (.abs "y" .missing (.var "x"))) (.var "y"))).2.stats.beta
      (Term.app (.abs "x" .missing (.abs "y" .missing (.var "x"))) (.var "y")).nameless
      (Term.abs "y1" .missing (.var "y")).nameless := by
  have h : ((({} : Reducer).withCeiling 10).reduce
      (.app (.abs "x" .missing (.abs "y" .missing (.var "x"))) (.var "y"))).1 =
      .ok (.abs "y1" .missing (.var "y")) := by cbv
  exact ⟨h, reduce_isNormal_betaSteps {} 10 _ _ h⟩

/-- Under one ceiling, terms that agree up to the names of bound variables are reduced
    alike: both reductions run out of bounds, or both return, with results that agree up to
    the names of bound variables; and they count the same visits and contractions. -/
theorem reduce_alphaEq (r r' : Reducer) (t t' : Term) (hceiling : r.ceiling = r'.ceiling)
    (h : t.alphaEq t' = true) :
    (((r.reduce t).1 = .error (.outOfBounds r.ceiling) ∧
        (r'.reduce t').1 = .error (.outOfBounds r.ceiling)) ∨
      ∃ n n', (r.reduce t).1 = .ok n ∧ (r'.reduce t').1 = .ok n' ∧ n.alphaEq n' = true) ∧
    (r.reduce t).2.stats.steps = (r'.reduce t').2.stats.steps ∧
    (r.reduce t).2.stats.beta = (r'.reduce t').2.stats.beta := by
  have hform : t.nameless = t'.nameless := Term.alphaEq_iff.1 h
  have hagrees := reduce_agrees r t
  have hagrees' := reduce_agrees r' t'
  rw [← hform, ← hceiling] at hagrees'
  have htally := hagrees.tally_eq.symm.trans hagrees'.tally_eq
  refine ⟨?_, congrArg Nameless.Tally.visits htally,
    congrArg Nameless.Tally.contractions htally⟩
  rcases hagrees.result_eq with ⟨n, hn, hsome⟩ | ⟨herror, hnone⟩ <;>
    rcases hagrees'.result_eq with ⟨n', hn', hsome'⟩ | ⟨herror', hnone'⟩
  · have hresult : some n.nameless = some n'.nameless := hsome.symm.trans hsome'
    exact Or.inr ⟨n, n', hn, hn', Term.alphaEq_iff.2 (Option.some.inj hresult)⟩
  · simp [hsome] at hnone'
  · simp [hsome'] at hnone
  · exact Or.inl ⟨herror, herror'⟩

/-- Of `(λx.λy.x) y` and `(λy.λx.y) y` only the first needs a renaming. -/
theorem reduce_alphaEq_capture :
    (Term.app (.abs "x" .missing (.abs "y" .missing (.var "x"))) (.var "y")).alphaEq
      (.app (.abs "y" .missing (.abs "x" .missing (.var "y"))) (.var "y")) = true ∧
    (({} : Reducer).reduce
        (.app (.abs "x" .missing (.abs "y" .missing (.var "x"))) (.var "y"))).2.stats.steps =
      (({} : Reducer).reduce
        (.app (.abs "y" .missing (.abs "x" .missing (.var "y"))) (.var "y"))).2.stats.steps ∧
    (({} : Reducer).reduce
        (.app (.abs "x" .missing (.abs "y" .missing (.var "x"))) (.var "y"))).2.stats.beta =
      (({} : Reducer).reduce
        (.app (.abs "y" .missing (.abs "x" .missing (.var "y"))) (.var "y"))).2.stats.beta := by
  have h : (Term.app (.abs "x" .missing (.abs "y" .missing (.var "x"))) (.var "y")).alphaEq
      (.app (.abs "y" .missing (.abs "x" .missing (.var "y"))) (.var "y")) = true := by decide
  exact ⟨h, (reduce_alphaEq {} {} _ _ rfl h).2⟩

end Reducer

end Redex
