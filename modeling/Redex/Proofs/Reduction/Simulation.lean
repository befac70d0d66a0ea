import Redex.Proofs.Nameless.Reduction
import Redex.Proofs.Reduction.Substitution
import Redex.Reduction.Normalization

/-! # Reduction follows the nameless reduction

    A visit of a term takes the same course as the visit of its nameless form: it fails at
    the same point or returns a term with the resulting form, after as many visits and
    contractions.  Names matter for nothing but the choice of fresh names.

    The invariant is that all names of the terms in play are in use; it makes each
    contraction the contraction of the nameless form. -/

namespace Redex

open Function Reduction

/-- The counters of a reduction that do not depend on names. -/
def Reduction.Progress.tally (progress : Progress) : Nameless.Tally :=
  ⟨progress.steps, progress.stats.beta⟩

namespace Reduction

/-! ### One contraction -/

/-- The contraction of a redex, given by its nameless form. -/
theorem contract_abs {binder : String} {ty : Ty} {body arg : Term} {progress : Progress}
    (hfn : (Term.abs binder ty body).NamedIn progress.supply.used)
    (harg : arg.NamedIn progress.supply.used) (ceiling : Nat) :
    ∃ contractum progress',
      contract ceiling (.abs binder ty body) arg progress = (.ok contractum, progress') ∧
      progress'.tally = progress.tally.contract ∧
      (∀ x ∈ progress.supply.used, x ∈ progress'.supply.used) ∧
      contractum.NamedIn progress'.supply.used ∧
      ∀ env : Env, contractum.namelessIn env =
        (body.namelessIn (env.bind binder)).instantiate (arg.namelessIn env) := by
  let start := progress.record (.beta binder)
  have hbody : body.NamedIn start.supply.used := hfn.of_abs.2
  have hbinder : binder ∈ start.supply.used := hfn.of_abs.1
  have hext := Term.substitute_extends body binder arg arg.free start
  refine ⟨_, _, rfl, ?_, hext.used, hbody.substitute harg, fun env => ?_⟩
  · have hbeta : (body.substitute binder arg arg.free start).2.stats.beta =
        progress.stats.beta + 1 := by
      rw [hext.beta]
      simp [start, Progress.stats, Progress.record, Rule.isBeta]
    unfold Progress.tally Nameless.Tally.contract
    rw [hext.steps, hbeta]
    rfl
  · have hsub := Term.substitute_namelessIn hbody harg hbinder (fun _ => Term.mem_free) env
    rw [hsub, Term.instantiate_namelessIn_bind]

/-! ### Whole visits -/

/-- The outcome of a visit agrees with that of a visit of nameless terms: both fail, or both
    return, and the counters are the same.  Along the way names are only added to those in
    use, and the names of the result are among them. -/
inductive Agrees (env : Env) (ceiling : Nat) (start : Progress) :
    Except ReduceError Term × Progress → Option Nameless × Nameless.Tally → Prop where
  | ok {n : Term} {progress : Progress}
      (hused : ∀ x ∈ start.supply.used, x ∈ progress.supply.used)
      (hnamed : n.NamedIn progress.supply.used) :
      Agrees env ceiling start (.ok n, progress) (some (n.namelessIn env), progress.tally)
  | failed (progress : Progress) :
      Agrees env ceiling start (.error (.outOfBounds ceiling), progress) (none, progress.tally)

namespace Agrees

variable {env : Env} {ceiling : Nat} {start start' : Progress}
  {run : Except ReduceError Term × Progress} {form : Option Nameless × Nameless.Tally}

theorem of_used (hsub : ∀ x ∈ start.supply.used, x ∈ start'.supply.used)
    (h : Agrees env ceiling start' run form) : Agrees env ceiling start run form := by
  cases h with
  | ok hused hnamed => exact .ok (fun x hx => hused x (hsub x hx)) hnamed
  | failed progress => exact .failed progress

theorem result_eq (h : Agrees env ceiling start run form) :
    (∃ n, run.1 = .ok n ∧ form.1 = some (n.namelessIn env)) ∨
      (run.1 = .error (.outOfBounds ceiling) ∧ form.1 = none) := by
  cases h with
  | ok hused hnamed => exact Or.inl ⟨_, rfl, rfl⟩
  | failed progress => exact Or.inr ⟨rfl, rfl⟩

theorem tally_eq (h : Agrees env ceiling start run form) : form.2 = run.2.tally := by
  cases h <;> rfl

theorem namedIn {n : Term} {progress : Progress}
    (h : Agrees env ceiling start (.ok n, progress) form) : n.NamedIn progress.supply.used := by
  cases h with
  | ok hused hnamed => exact hnamed

theorem used {n : Term} {progress : Progress}
    (h : Agrees env ceiling start (.ok n, progress) form) :
    ∀ x ∈ start.supply.used, x ∈ progress.supply.used := by
  cases h with
  | ok hused hnamed => exact hused

theorem eq_of_ok {n : Term} {progress : Progress}
    (h : Agrees env ceiling start (.ok n, progress) form) :
    form = (some (n.namelessIn env), progress.tally) := by
  cases h
  rfl

end Agrees

/-- A visit follows the visit of the nameless form, inside any binders. -/
theorem visit_agrees (ceiling depth : Nat) (t : Term) (progress : Progress) (env : Env)
    (ht : t.NamedIn progress.supply.used) (henv : env.Simple) :
    Agrees env ceiling progress (visit ceiling depth t progress)
      (Nameless.visit ceiling depth (t.namelessIn env) progress.tally) := by
  induction depth generalizing t progress env with
  | zero => exact .failed progress.tick
  | succ depth ih =>
    have htick : progress.tally.tick = progress.tick.tally := rfl
    have hvisits : progress.tick.tally.visits = progress.tick.steps := rfl
    by_cases hceiling : ceiling < progress.tick.steps
    · unfold visit Nameless.visit
      rw [if_pos hceiling, htick, hvisits, if_pos hceiling]
      exact .failed progress.tick
    · cases t with
      | missing =>
        simp only [visit, if_neg hceiling, Term.namelessIn, Nameless.visit, htick, hvisits]
        exact .ok (fun _ hx => hx) ht
      | var x =>
        have hok : Agrees env ceiling progress (.ok (.var x), progress.tick)
            (some (env x), progress.tick.tally) := .ok (fun _ hx => hx) ht
        have hvar := henv x
        simp only [visit, if_neg hceiling, Term.namelessIn, Nameless.visit, htick, hvisits]
        cases hx : env x with
        | bound i => rw [hx] at hok; exact hok
        | free y => rw [hx] at hok; exact hok
        | _ => simp [hx, Nameless.isVar] at hvar
      | abs x ty body =>
        have hbody := ih body progress.tick (env.bind x) ht.of_abs.2 (henv.bind x)
        simp only [visit, if_neg hceiling, Term.namelessIn, Nameless.visit, htick, hvisits]
        generalize visit ceiling depth body progress.tick = run at hbody ⊢
        generalize Nameless.visit ceiling depth _ _ = form at hbody ⊢
        cases hbody with
        | ok hused hnamed => exact .ok hused (.abs (hused x ht.of_abs.1) hnamed)
        | failed progress' => exact .failed progress'
      | app fn arg =>
        have hfn := ih fn progress.tick env ht.of_app.1 henv
        simp only [visit, if_neg hceiling, Term.namelessIn, Nameless.visit, htick, hvisits]
        generalize visit ceiling depth fn progress.tick = run at hfn ⊢
        generalize Nameless.visit ceiling depth (fn.namelessIn env) _ = form at hfn ⊢
        cases hfn with
        | failed progress' => exact .failed progress'
        | @ok fn' progress' hused hnamed =>
          have hnamedArg : arg.NamedIn progress'.supply.used := ht.of_app.2.mono hused
          have harg := ih arg progress' env hnamedArg henv
          cases hform : fn'.namelessIn env with
          | abs ty body =>
            obtain ⟨y, body, rfl, rfl⟩ := Term.exists_of_namelessIn_eq_abs henv hform
            obtain ⟨contractum, progress'', hcontract, htally, hused', hnamed', hbody⟩ :=
              contract_abs hnamed hnamedArg ceiling
            have hcontractum := ih contractum progress'' env hnamed' henv
            rw [hbody, htally] at hcontractum
            simp only [Term.isAbs, if_true, hcontract]
            exact hcontractum.of_used fun x hx => hused' x (hused x hx)
          | _ =>
            have hisAbs : fn'.isAbs = false := by
              cases fn' with
              | abs y ty body => simp [Term.namelessIn] at hform
              | _ => rfl
            simp only [hisAbs]
            generalize visit ceiling depth arg progress' = run at harg ⊢
            generalize Nameless.visit ceiling depth _ _ = form at harg ⊢
            cases harg with
            | failed progress'' => exact .failed progress''
            | @ok arg' progress'' hused' hnamed' =>
              have hok : Agrees env ceiling progress (.ok (.app fn' arg'), progress'')
                  (some (.app (fn'.namelessIn env) (arg'.namelessIn env)), progress''.tally) :=
                .ok (fun x hx => hused' x (hused x hx)) ((hnamed.mono hused').app hnamed')
              rw [hform] at hok
              exact hok

/-- A reduction takes the course of the reduction of the nameless form. -/
theorem normalize_agrees (ceiling : Nat) (t : Term) :
    Agrees .free ceiling (.ofTerm t) (normalize ceiling t)
      (Nameless.visit ceiling ceiling t.nameless ⟨0, 0⟩) :=
  visit_agrees ceiling ceiling t (.ofTerm t) .free (Supply.namedIn_ofTerm t) Env.simple_free

end Reduction

end Redex
