import Mathlib.Logic.Function.Basic
import Redex.Proofs.Nameless
import Redex.Proofs.Term.Names
import Redex.Term.Alpha

/-! # The nameless form of a term

    `Term.namelessIn` reads a term in an environment that gives a nameless term for every
    name; a binder takes the innermost index for its own name and lifts what the others
    stand for.  The nameless form itself reads each free name as itself.

    Reading is compositional: renaming and substitution in the term are updates of the
    environment, and substitution in the nameless form acts on each value of the
    environment.  Two terms are equal up to the names of bound variables iff their
    nameless forms are equal (`alphaEq_iff`). -/

namespace Redex

open Function

/-- What the names of a term stand for. -/
abbrev Env := String → Nameless

/-- The environment below a binder. -/
def Env.bind (env : Env) (x : String) : Env :=
  fun y => if y = x then .bound 0 else (env y).lift

namespace Env

@[simp] theorem bind_self (env : Env) (x : String) : env.bind x x = .bound 0 := by
  simp [bind]

@[simp] theorem bind_of_ne (env : Env) {x y : String} (h : y ≠ x) :
    env.bind x y = (env y).lift := by
  simp [bind, h]

/-- A binder hides what its name stood for. -/
theorem bind_update_self (env : Env) (x : String) (u : Nameless) :
    Env.bind (update env x u) x = env.bind x := by
  funext y
  by_cases hy : y = x
  · rw [hy, bind_self, bind_self]
  · rw [bind_of_ne _ hy, bind_of_ne _ hy, update_of_ne hy]

/-- A binder lifts what another name stands for. -/
theorem bind_update_of_ne (env : Env) {x y : String} (h : y ≠ x) (u : Nameless) :
    Env.bind (update env y u) x = update (env.bind x) y u.lift := by
  funext z
  by_cases hz : z = y
  · subst hz
    rw [bind_of_ne _ h, update_self, update_self]
  · rw [update_of_ne hz]
    by_cases hx : z = x
    · rw [hx, bind_self, bind_self]
    · rw [bind_of_ne _ hx, bind_of_ne _ hx, update_of_ne hz]

/-- Every name stands for a variable. -/
def Simple (env : Env) : Prop :=
  ∀ x, (env x).isVar = true

theorem simple_free : Simple .free :=
  fun _ => rfl

theorem Simple.bind {env : Env} (h : env.Simple) (x : String) : (env.bind x).Simple := by
  intro y
  by_cases hy : y = x
  · rw [hy, bind_self]
    rfl
  · rw [bind_of_ne _ hy, Nameless.isVar_lift]
    exact h y

/-- What names stand for inside a list of binders, the innermost first. -/
def ofBinders (scope : List String) : Env :=
  fun x => match scope.idxOf? x with
    | some i => .bound i
    | none => .free x

theorem ofBinders_nil : ofBinders [] = .free := by
  funext x
  simp [ofBinders]

theorem ofBinders_cons (x : String) (scope : List String) :
    ofBinders (x :: scope) = (ofBinders scope).bind x := by
  funext y
  by_cases hy : y = x
  · subst hy
    simp [ofBinders, List.idxOf?_cons]
  · have hne : (x == y) = false := by simpa using Ne.symm hy
    rw [Env.bind_of_ne _ hy]
    simp only [ofBinders, List.idxOf?_cons, hne]
    cases scope.idxOf? y <;> rfl

theorem simple_ofBinders (scope : List String) : (ofBinders scope).Simple := by
  induction scope with
  | nil =>
    rw [ofBinders_nil]
    exact simple_free
  | cons x scope ih =>
    rw [ofBinders_cons]
    exact ih.bind x

end Env

namespace Term

/-- The nameless form of a term in an environment for its free names. -/
def namelessIn (env : Env) : Term → Nameless
  | .missing => .missing
  | .var x => env x
  | .abs x ty body => .abs ty (body.namelessIn (env.bind x))
  | .app fn arg => .app (fn.namelessIn env) (arg.namelessIn env)

/-- The nameless form of a term. -/
def nameless (t : Term) : Nameless :=
  t.namelessIn .free

/-- Where names stand for variables, only an abstraction has the form of one. -/
theorem exists_of_namelessIn_eq_abs {t : Term} {env : Env} {ty : Ty} {body : Nameless}
    (henv : env.Simple) (h : t.namelessIn env = .abs ty body) :
    ∃ x body', t = .abs x ty body' ∧ body = body'.namelessIn (env.bind x) := by
  cases t with
  | missing => simp [namelessIn] at h
  | var x =>
    have hvar := henv x
    simp only [namelessIn] at h
    simp [h, Nameless.isVar] at hvar
  | abs x ty' body' =>
    cases h
    exact ⟨x, body', rfl, rfl⟩
  | app fn arg => simp [namelessIn] at h

/-! ### Environments that agree -/

/-- The form of a term tells exactly what its free names stand for. -/
theorem namelessIn_eq_iff (t : Term) (env env' : Env) :
    t.namelessIn env = t.namelessIn env' ↔ ∀ x, t.HasFree x → env x = env' x := by
  induction t generalizing env env' with
  | missing => simp [namelessIn, HasFree]
  | var y => simp [namelessIn, HasFree]
  | abs y ty body ih =>
    have hstep : ∀ x, x ≠ y → (env.bind y x = env'.bind y x ↔ env x = env' x) := by
      intro x hx
      rw [Env.bind_of_ne _ hx, Env.bind_of_ne _ hx]
      exact ⟨Nameless.lift_injective, fun h => by rw [h]⟩
    simp only [namelessIn, Nameless.abs.injEq, true_and, HasFree]
    rw [ih]
    constructor
    · intro h x hx
      exact (hstep x hx.1).1 (h x hx.2)
    · intro h x hx
      by_cases hxy : x = y
      · rw [hxy, Env.bind_self, Env.bind_self]
      · exact (hstep x hxy).2 (h x ⟨hxy, hx⟩)
  | app fn arg ihf iha =>
    simp only [namelessIn, Nameless.app.injEq, HasFree]
    rw [ihf, iha]
    constructor
    · rintro ⟨hfn, harg⟩ x (hx | hx)
      · exact hfn x hx
      · exact harg x hx
    · intro h
      exact ⟨fun x hx => h x (Or.inl hx), fun x hx => h x (Or.inr hx)⟩

theorem namelessIn_congr {t : Term} {env env' : Env}
    (h : ∀ x, t.HasFree x → env x = env' x) : t.namelessIn env = t.namelessIn env' :=
  (namelessIn_eq_iff t env env').2 h

theorem namelessIn_update_of_not_free {t : Term} {x : String} (env : Env) (u : Nameless)
    (h : ¬ t.HasFree x) : t.namelessIn (update env x u) = t.namelessIn env := by
  apply namelessIn_congr
  intro y hy
  apply update_of_ne
  rintro rfl
  exact h hy

/-! ### Operations on the values of an environment -/

theorem reindex_namelessIn (t : Term) (env : Env) (ρ : Nat → Nat) :
    (t.namelessIn env).reindex ρ = t.namelessIn (fun x => (env x).reindex ρ) := by
  induction t generalizing env ρ with
  | missing => rfl
  | var x => rfl
  | abs y ty body ih =>
    have hbind : (fun x => (env.bind y x).reindex (Nameless.upIndex ρ)) =
        Env.bind (fun x => (env x).reindex ρ) y := by
      funext x
      by_cases hx : x = y
      · rw [hx, Env.bind_self, Env.bind_self]
        rfl
      · rw [Env.bind_of_ne _ hx, Env.bind_of_ne _ hx, Nameless.lift_reindex]
    simp only [namelessIn, Nameless.reindex]
    rw [ih, hbind]
  | app fn arg ihf iha =>
    simp only [namelessIn, Nameless.reindex]
    rw [ihf, iha]

theorem subst_namelessIn (t : Term) (env : Env) (σ : Nat → Nameless) :
    (t.namelessIn env).subst σ = t.namelessIn (fun x => (env x).subst σ) := by
  induction t generalizing env σ with
  | missing => rfl
  | var x => rfl
  | abs y ty body ih =>
    have hbind : (fun x => (env.bind y x).subst (Nameless.up σ)) =
        Env.bind (fun x => (env x).subst σ) y := by
      funext x
      by_cases hx : x = y
      · rw [hx, Env.bind_self, Env.bind_self]
        rfl
      · rw [Env.bind_of_ne _ hx, Env.bind_of_ne _ hx, Nameless.lift_subst]
    simp only [namelessIn, Nameless.subst]
    rw [ih, hbind]
  | app fn arg ihf iha =>
    simp only [namelessIn, Nameless.subst]
    rw [ihf, iha]

theorem replace_namelessIn (t : Term) (env : Env) (x : String) (u : Nameless) :
    (t.namelessIn env).replace x u = t.namelessIn (fun y => (env y).replace x u) := by
  induction t generalizing env u with
  | missing => rfl
  | var y => rfl
  | abs y ty body ih =>
    have hbind : (fun z => (env.bind y z).replace x u.lift) =
        Env.bind (fun z => (env z).replace x u) y := by
      funext z
      by_cases hz : z = y
      · rw [hz, Env.bind_self, Env.bind_self]
        rfl
      · rw [Env.bind_of_ne _ hz, Env.bind_of_ne _ hz, Nameless.lift_replace]
    simp only [namelessIn, Nameless.replace]
    rw [ih, hbind]
  | app fn arg ihf iha =>
    simp only [namelessIn, Nameless.replace]
    rw [ihf, iha]

/-- A term that does not use a binder is lifted below it. -/
theorem namelessIn_bind_of_not_free {t : Term} {x : String} (env : Env)
    (h : ¬ t.HasFree x) : t.namelessIn (env.bind x) = (t.namelessIn env).lift := by
  unfold Nameless.lift
  rw [reindex_namelessIn]
  apply namelessIn_congr
  intro y hy
  apply Env.bind_of_ne
  rintro rfl
  exact h hy

/-- Substitution for a free name, as an update of the environment. -/
theorem replace_nameless (t : Term) (x : String) (u : Nameless) :
    t.nameless.replace x u = t.namelessIn (update .free x u) := by
  unfold nameless
  rw [replace_namelessIn]
  congr 1
  funext y
  by_cases hy : y = x
  · rw [hy, update_self]
    simp [Nameless.replace]
  · rw [update_of_ne hy]
    simp [Nameless.replace, hy]

theorem replace_nameless_of_not_free {t : Term} {x : String} (u : Nameless)
    (h : ¬ t.HasFree x) : t.nameless.replace x u = t.nameless := by
  rw [replace_nameless, namelessIn_update_of_not_free _ _ h]
  rfl

/-- The contraction of a redex, as an update of the environment. -/
theorem instantiate_namelessIn_bind (t : Term) (env : Env) (x : String) (u : Nameless) :
    (t.namelessIn (env.bind x)).instantiate u = t.namelessIn (update env x u) := by
  unfold Nameless.instantiate
  rw [subst_namelessIn]
  congr 1
  funext y
  by_cases hy : y = x
  · rw [hy, Env.bind_self, update_self]
    rfl
  · rw [Env.bind_of_ne _ hy, update_of_ne hy]
    exact Nameless.instantiate_lift (env y) u

/-! ### Equality up to bound names -/

theorem alphaEqIn_iff (t u : Term) (scope scope' : List String) :
    alphaEqIn scope scope' t u = true ↔
      t.namelessIn (Env.ofBinders scope) = u.namelessIn (Env.ofBinders scope') := by
  fun_induction alphaEqIn scope scope' t u with
  | case1 => simp [namelessIn]
  | case2 scope scope' x y i j hx hy => simp [namelessIn, Env.ofBinders, hx, hy]
  | case3 scope scope' x y hx hy => simp [namelessIn, Env.ofBinders, hx, hy]
  | case4 scope scope' x y hsome hnone =>
    -- one of the two is bound and the other is free
    cases hx : scope.idxOf? x <;> cases hy : scope'.idxOf? y
    · exact absurd hy (hnone hx)
    · simp [namelessIn, Env.ofBinders, hx, hy]
    · simp [namelessIn, Env.ofBinders, hx, hy]
    · exact absurd hy (hsome _ _ hx)
  | case5 scope scope' x ty body y ty' body' ih =>
    simp only [namelessIn, Nameless.abs.injEq, Bool.and_eq_true, beq_iff_eq]
    rw [ih, Env.ofBinders_cons, Env.ofBinders_cons]
  | case6 scope scope' fn arg fn' arg' ihf iha =>
    simp only [namelessIn, Nameless.app.injEq, Bool.and_eq_true]
    rw [ihf, iha]
  | case7 t scope scope' u hmissing hvar habs happ =>
    -- terms of different shapes, where a variable is never read as anything else
    have hx := Env.simple_ofBinders scope
    have hy := Env.simple_ofBinders scope'
    cases t <;> cases u <;> grind [namelessIn, Env.Simple, Nameless.isVar]

/-- Terms agree up to the names of bound variables iff their nameless forms are equal. -/
theorem alphaEq_iff {t u : Term} : t.alphaEq u = true ↔ t.nameless = u.nameless := by
  rw [alphaEq, alphaEqIn_iff, Env.ofBinders_nil]
  rfl

end Term

end Redex
