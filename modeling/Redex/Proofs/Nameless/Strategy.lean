import Mathlib.Logic.Relation
import Redex.Proofs.Nameless.Reduction

/-! # The order of contractions

    An evaluation contracts a redex only when its abstraction is in normal form, and turns to
    the argument of an application only when the function is in normal form and no
    abstraction.  `FunctionFirst` is this order as a choice of the next contraction.

    * The terms that evaluate are those whose contractions in this order come to an end
      (`exists_evaluates_iff`).
    * The order always has a next contraction, so it ends wherever every order does
      (`reachesNormal_of_acc`).
    * It is not the normal order: a redex whose abstraction has no normal form is never
      contracted, even if the contractum has one. -/

namespace Redex.Nameless

open Relation

/-- The next contraction: in the function of an application first, then the redex itself or
    else in the argument. -/
inductive FunctionFirst : Nameless → Nameless → Prop where
  | redex (ty : Ty) {body : Nameless} (arg : Nameless) (normal : body.IsNormal) :
      FunctionFirst (.app (.abs ty body) arg) (body.instantiate arg)
  | abs (ty : Ty) {body body' : Nameless} (step : FunctionFirst body body') :
      FunctionFirst (.abs ty body) (.abs ty body')
  | fn {fn fn' : Nameless} (arg : Nameless) (step : FunctionFirst fn fn') :
      FunctionFirst (.app fn arg) (.app fn' arg)
  | arg {fn arg arg' : Nameless} (isAbs : fn.isAbs = false) (normal : fn.IsNormal)
      (step : FunctionFirst arg arg') : FunctionFirst (.app fn arg) (.app fn arg')

/-- Contractions in this order come to an end. -/
def ReachesNormal (t : Nameless) : Prop :=
  ∃ n, ReflTransGen FunctionFirst t n ∧ n.IsNormal

theorem FunctionFirst.beta {t u : Nameless} (step : FunctionFirst t u) : Beta t u := by
  induction step with
  | redex ty arg normal => exact .redex ty _ arg
  | abs ty step ih => exact .abs ty ih
  | fn arg step ih => exact .fn arg ih
  | arg isAbs normal step ih => exact .arg _ ih

/-- A term with a redex has a next contraction. -/
theorem exists_functionFirst {t : Nameless} (h : ¬ t.IsNormal) : ∃ u, FunctionFirst t u := by
  induction t with
  | missing | bound | free => exact absurd trivial h
  | abs ty body ih =>
    obtain ⟨body', step⟩ := ih h
    exact ⟨.abs ty body', .abs ty step⟩
  | app fn arg ihf iha =>
    by_cases hfn : fn.IsNormal
    · by_cases isAbs : fn.isAbs = false
      · have harg : ¬ arg.IsNormal := fun harg => h ⟨isAbs, hfn, harg⟩
        obtain ⟨arg', step⟩ := iha harg
        exact ⟨.app fn arg', .arg isAbs hfn step⟩
      · cases fn with
        | abs ty body => exact ⟨body.instantiate arg, .redex ty arg hfn⟩
        | _ => exact absurd rfl isAbs
    · obtain ⟨fn', step⟩ := ihf hfn
      exact ⟨.app fn' arg, .fn arg step⟩

/-- If no sequence of contractions goes on for ever, those in this order come to an end. -/
theorem reachesNormal_of_acc {t : Nameless} (h : Acc (fun u t => Beta t u) t) :
    t.ReachesNormal := by
  induction h with
  | intro t _ ih =>
    by_cases normal : t.IsNormal
    · exact ⟨t, .refl, normal⟩
    · obtain ⟨u, step⟩ := exists_functionFirst normal
      obtain ⟨n, steps, normal⟩ := ih u step.beta
      exact ⟨n, .head step steps, normal⟩

/-! ### Evaluations take this order -/

theorem IsNormal.evaluates {n : Nameless} (h : n.IsNormal) : ∃ v, Evaluates n n v 0 := by
  induction n with
  | missing => exact ⟨1, .missing⟩
  | bound i => exact ⟨1, .bound i⟩
  | free x => exact ⟨1, .free x⟩
  | abs ty body ih =>
    obtain ⟨v, heval⟩ := ih h
    exact ⟨v + 1, .abs heval⟩
  | app fn arg ihf iha =>
    obtain ⟨isAbs, hfn, harg⟩ := h
    obtain ⟨v, hfn⟩ := ihf hfn
    obtain ⟨v', harg⟩ := iha harg
    exact ⟨v + v' + 1, .app hfn isAbs harg⟩

/-- A normal form evaluates to nothing but itself. -/
theorem IsNormal.eq_of_evaluates {t n : Nameless} {v c : Nat} (h : t.IsNormal)
    (heval : Evaluates t n v c) : n = t := by
  induction heval with
  | missing | bound | free => rfl
  | abs _ ih => rw [ih h]
  | redex hfn _ ihf _ =>
    obtain ⟨isAbs, normal, -⟩ := h
    rw [← ihf normal] at isAbs
    cases isAbs
  | app _ _ _ ihf iha => rw [ihf h.2.1, iha h.2.2]

/-- A term evaluates to what the term after its next contraction evaluates to. -/
theorem FunctionFirst.evaluates {t u n : Nameless} {v c : Nat} (step : FunctionFirst t u)
    (heval : Evaluates u n v c) : ∃ v' c', Evaluates t n v' c' := by
  induction step generalizing n v c with
  | redex ty arg normal =>
    obtain ⟨v', hbody⟩ := normal.evaluates
    exact ⟨_, _, .redex (.abs hbody) heval⟩
  | abs ty step ih =>
    cases heval with
    | abs hbody =>
      obtain ⟨v', c', hbody⟩ := ih hbody
      exact ⟨_, _, .abs hbody⟩
  | fn arg step ih =>
    cases heval with
    | redex hfn hbody =>
      obtain ⟨v', c', hfn⟩ := ih hfn
      exact ⟨_, _, .redex hfn hbody⟩
    | app hfn isAbs harg =>
      obtain ⟨v', c', hfn⟩ := ih hfn
      exact ⟨_, _, .app hfn isAbs harg⟩
  | arg isAbs normal step ih =>
    cases heval with
    | redex hfn hbody =>
      -- the function is in normal form, so it does not become an abstraction
      have same := normal.eq_of_evaluates hfn
      rw [← same] at isAbs
      cases isAbs
    | app hfn isAbs' harg =>
      obtain ⟨v', c', harg⟩ := ih harg
      exact ⟨_, _, .app hfn isAbs' harg⟩

theorem Evaluates.functionFirst {t n : Nameless} {v c : Nat} (h : Evaluates t n v c) :
    ReflTransGen FunctionFirst t n := by
  induction h with
  | missing | bound | free => exact .refl
  | abs _ ih => exact ih.lift _ fun _ _ => .abs _
  | @redex ty fn body arg n v c v' c' hfn h ihf ih =>
    have hredex : ReflTransGen FunctionFirst (.app fn arg) (.app (.abs ty body) arg) :=
      ihf.lift (Nameless.app · arg) fun _ _ => .fn arg
    exact hredex.trans (.head (.redex ty arg hfn.isNormal) ih)
  | @app fn fn' arg arg' v c v' c' hfn isAbs harg ihf iha =>
    have hfn' : ReflTransGen FunctionFirst (.app fn arg) (.app fn' arg) :=
      ihf.lift (Nameless.app · arg) fun _ _ => .fn arg
    exact hfn'.trans (iha.lift (Nameless.app fn') fun _ _ => .arg isAbs hfn.isNormal)

/-- A term evaluates iff its contractions in this order come to an end. -/
theorem exists_evaluates_iff {t : Nameless} :
    (∃ n v c, Evaluates t n v c) ↔ t.ReachesNormal := by
  constructor
  · rintro ⟨n, v, c, heval⟩
    exact ⟨n, heval.functionFirst, heval.isNormal⟩
  · rintro ⟨n, steps, normal⟩
    induction steps using ReflTransGen.head_induction_on with
    | refl =>
      obtain ⟨v, heval⟩ := normal.evaluates
      exact ⟨n, v, 0, heval⟩
    | head step _ ih =>
      obtain ⟨n', v, c, heval⟩ := ih
      exact ⟨n', step.evaluates heval⟩

/-! ### Arguments that are discarded -/

theorem isAbs_reindex (t : Nameless) (ρ : Nat → Nat) : (t.reindex ρ).isAbs = t.isAbs := by
  cases t <;> rfl

theorem IsNormal.of_reindex {t : Nameless} {ρ : Nat → Nat} (h : (t.reindex ρ).IsNormal) :
    t.IsNormal := by
  induction t generalizing ρ with
  | missing | bound | free => trivial
  | abs ty body ih => exact ih h
  | app fn arg ihf iha =>
    obtain ⟨isAbs, hfn, harg⟩ := h
    rw [isAbs_reindex] at isAbs
    exact ⟨isAbs, ihf hfn, iha harg⟩

/-- An application evaluates whatever its argument, if its function evaluates to an
    abstraction that does not use it. -/
theorem Evaluates.discard {fn body : Nameless} {ty : Ty} {v c : Nat}
    (h : Evaluates fn (.abs ty body.lift) v c) (arg : Nameless) :
    ∃ v' c', Evaluates (.app fn arg) body v' c' := by
  have normal : body.IsNormal := IsNormal.of_reindex h.isNormal
  obtain ⟨v', hbody⟩ := normal.evaluates
  have hcontractum : Evaluates (body.lift.instantiate arg) body v' 0 := by
    rwa [instantiate_lift]
  exact ⟨_, _, .redex h hcontractum⟩

end Redex.Nameless
