import Redex.Proofs.Nameless.Strategy
import Redex.Proofs.Reducer.NormalForm

/-! # Which terms a reducer brings to normal form

    A reducer returns under some ceiling iff the contractions of its term come to an end when
    functions come first (`returns_iff_reachesNormal`).  That is so if every sequence of
    contractions ends; and an argument is never looked at, and may be anything, if the function
    of an application is brought to an abstraction that does not use it.

    It is not so of every term with a normal form.  In `(λf.f Ω) (λy.z)` the function has none
    of its own, although `Ω` is discarded in the end (`reduce_discarded_below_binder`). -/

namespace Redex

open Reduction

/-! ### Divergence -/

/-- The application of `λx.x x` to itself. -/
def Term.omega : Term :=
  .app (.abs "x" .missing (.app (.var "x") (.var "x")))
    (.abs "x" .missing (.app (.var "x") (.var "x")))

/-- The nameless form of `Term.omega`. -/
def Nameless.omega : Nameless :=
  .app (.abs .missing (.app (.bound 0) (.bound 0))) (.abs .missing (.app (.bound 0) (.bound 0)))

theorem Term.omega_namelessIn (env : Env) : Term.omega.namelessIn env = .omega := by
  simp [omega, Nameless.omega, namelessIn]

namespace Nameless

/-- The only contraction of `omega` gives it back, so an evaluation would contain a shorter
    one. -/
theorem not_evaluates_omega {n : Nameless} {v c : Nat} : ¬ Evaluates .omega n v c := by
  intro heval
  induction v using Nat.strongRecOn generalizing n c with
  | ind v ih =>
    have normal : (abs .missing (.app (.bound 0) (.bound 0))).IsNormal := ⟨rfl, trivial, trivial⟩
    cases heval with
    | redex hfn hbody =>
      cases normal.eq_of_evaluates hfn
      exact ih _ (by omega) hbody
    | app hfn isAbs harg =>
      cases normal.eq_of_evaluates hfn
      cases isAbs

/-- An application evaluates only if its function does. -/
theorem Evaluates.exists_fn {fn arg n : Nameless} {v c : Nat} (h : Evaluates (.app fn arg) n v c) :
    ∃ fn' v' c', Evaluates fn fn' v' c' := by
  cases h with
  | redex hfn _ => exact ⟨_, _, _, hfn⟩
  | app hfn _ _ => exact ⟨_, _, _, hfn⟩

/-- Below a binder, the application of a variable evaluates only if the argument does. -/
theorem Evaluates.exists_arg {ty : Ty} {i : Nat} {arg n : Nameless} {v c : Nat}
    (h : Evaluates (.abs ty (.app (.bound i) arg)) n v c) :
    ∃ arg' v' c', Evaluates arg arg' v' c' := by
  cases h with
  | abs hbody =>
    cases hbody with
    | redex hfn _ => cases hfn
    | app _ _ harg => exact ⟨_, _, _, harg⟩

end Nameless

/-! ### Reduction under some ceiling -/

namespace Reducer

/-- The result of a reduction under some ceiling. -/
def Returns (r : Reducer) (t n : Term) : Prop :=
  ∃ ceiling : Int, 0 < ceiling ∧ ((r.withCeiling ceiling).reduce t).1 = .ok n

/-- The number of visits of an evaluation is enough of a ceiling, and so is any other that is
    not below it. -/
theorem exists_reduce_of_evaluates (r : Reducer) {t : Term} {u : Nameless} {v c : Nat}
    (heval : Nameless.Evaluates t.nameless u v c) {ceiling : Int} (hle : (v : Int) ≤ ceiling) :
    ∃ n, ((r.withCeiling ceiling).reduce t).1 = .ok n ∧ n.nameless = u := by
  have hpos : 0 < ceiling := by
    have := heval.visits_pos
    omega
  have hceiling : (r.withCeiling ceiling).ceiling = ceiling.toNat := by
    rw [withCeiling, if_pos hpos]
  have hroom : v ≤ ceiling.toNat := by omega
  have hagrees := reduce_agrees (r.withCeiling ceiling) t
  rw [hceiling, heval.visit_eq hroom (by simpa using hroom)] at hagrees
  rcases hagrees.result_eq with ⟨n, hn, hsome⟩ | ⟨-, hnone⟩
  · exact ⟨n, hn, (Option.some.inj hsome).symm⟩
  · cases hnone

/-- A reducer returns, under some ceiling, exactly what the nameless form evaluates to. -/
theorem exists_returns_iff (r : Reducer) (t : Term) (u : Nameless) :
    (∃ n, r.Returns t n ∧ n.nameless = u) ↔ ∃ v c, Nameless.Evaluates t.nameless u v c := by
  constructor
  · rintro ⟨n, ⟨ceiling, -, returned⟩, rfl⟩
    have hagrees := reduce_agrees (r.withCeiling ceiling) t
    rcases hagrees.result_eq with ⟨n', hn', hsome⟩ | ⟨herror, -⟩
    · obtain rfl : n = n' := Except.ok.inj (returned.symm.trans hn')
      obtain ⟨v, c, -, heval⟩ := Nameless.visit_evaluates (Prod.ext hsome rfl)
      exact ⟨v, c, heval⟩
    · rw [returned] at herror
      cases herror
  · rintro ⟨v, c, heval⟩
    have hpos : (0 : Int) < v := Int.natCast_pos.2 heval.visits_pos
    obtain ⟨n, returned, same⟩ := exists_reduce_of_evaluates r heval (Int.le_refl v)
    exact ⟨n, ⟨v, hpos, returned⟩, same⟩

/-- A reducer returns under some ceiling iff contractions that start with the function of an
    application come to an end; they do so wherever all contractions end.  An argument that the
    function of an application turns out not to use need not have a normal form. -/
theorem returns_iff_reachesNormal (r : Reducer) (t : Term) :
    ((∃ n, r.Returns t n) ↔ t.nameless.ReachesNormal) ∧
    (Acc (fun u t => Nameless.Beta t u) t.nameless → ∃ n, r.Returns t n) ∧
    ∀ x ty body arg, r.Returns t (.abs x ty body) → ¬ body.HasFree x →
      ∃ n, r.Returns (.app t arg) n ∧ n.alphaEq body = true := by
  have hiff : (∃ n, r.Returns t n) ↔ t.nameless.ReachesNormal := by
    rw [← Nameless.exists_evaluates_iff]
    constructor
    · rintro ⟨n, returned⟩
      exact ⟨n.nameless, (exists_returns_iff r t n.nameless).1 ⟨n, returned, rfl⟩⟩
    · rintro ⟨u, heval⟩
      obtain ⟨n, returned, -⟩ := (exists_returns_iff r t u).2 heval
      exact ⟨n, returned⟩
  refine ⟨hiff, fun hacc => hiff.2 (Nameless.reachesNormal_of_acc hacc), ?_⟩
  intro x ty body arg returned unused
  obtain ⟨v, c, heval⟩ := (exists_returns_iff r t _).1 ⟨_, returned, rfl⟩
  have hlift : (Term.abs x ty body).nameless = .abs ty body.nameless.lift :=
    congrArg (Nameless.abs ty) (Term.namelessIn_bind_of_not_free .free unused)
  rw [hlift] at heval
  obtain ⟨n, returned, same⟩ :=
    (exists_returns_iff r (.app t arg) body.nameless).2 (heval.discard arg.nameless)
  exact ⟨n, returned, Term.alphaEq_iff.2 same⟩

/-- The function `λx.z` discards its argument, which has no normal form. -/
theorem returns_discarded_omega :
    ({} : Reducer).Returns (.abs "x" .missing (.var "z")) (.abs "x" .missing (.var "z")) ∧
    ∃ n, ({} : Reducer).Returns (.app (.abs "x" .missing (.var "z")) .omega) n ∧
      n.alphaEq (.var "z") = true := by
  have returned : ({} : Reducer).Returns (.abs "x" .missing (.var "z"))
      (.abs "x" .missing (.var "z")) := ⟨10, by decide, by cbv⟩
  have unused : ¬ (Term.var "z").HasFree "x" := by simp [Term.HasFree]
  have discards := (returns_iff_reachesNormal {} (.abs "x" .missing (.var "z"))).2.2
  exact ⟨returned, discards "x" .missing (.var "z") .omega returned unused⟩

/-- Two contractions bring `(λf.f Ω) (λy.z)` to its normal form `z`, but no ceiling is enough
    for a reducer: it looks for a normal form of the function first, and so of `Ω`. -/
theorem reduce_discarded_below_binder :
    (∃ n, Nameless.BetaSteps 2
      (Term.app (.abs "f" .missing (.app (.var "f") .omega))
        (.abs "y" .missing (.var "z"))).nameless n ∧ n.IsNormal) ∧
    ∀ (r : Reducer) (n : Term),
      ¬ r.Returns (.app (.abs "f" .missing (.app (.var "f") .omega))
        (.abs "y" .missing (.var "z"))) n := by
  have form : (Term.app (.abs "f" .missing (.app (.var "f") .omega))
      (.abs "y" .missing (.var "z"))).nameless =
      .app (.abs .missing (.app (.bound 0) .omega)) (.abs .missing (.free "z")) := by
    simp [Term.nameless, Term.namelessIn, Term.omega_namelessIn, Nameless.lift, Nameless.reindex]
  constructor
  · rw [form]
    exact ⟨.free "z", .step (.redex _ _ _) (.step (.redex _ _ _) (.refl _)), trivial⟩
  · intro r n returned
    obtain ⟨v, c, heval⟩ := (exists_returns_iff r _ _).1 ⟨n, returned, rfl⟩
    rw [form] at heval
    obtain ⟨_, _, _, hfn⟩ := heval.exists_fn
    obtain ⟨_, _, _, harg⟩ := hfn.exists_arg
    exact Nameless.not_evaluates_omega harg

end Reducer

end Redex
