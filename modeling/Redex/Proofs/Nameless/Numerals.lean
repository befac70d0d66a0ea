import Mathlib.Logic.Function.Iterate
import Redex.Proofs.Nameless.Strategy

/-! # Arithmetic on nameless numerals

    The numeral of `n` takes a function and an argument, and applies the one `n` times to the
    other.  The normal forms of the successor of a numeral, and of the sum and the product of two,
    are again numerals.

    Evaluation goes below binders, with functions first.  So the sum of two numerals is evaluated in
    two stages: first the sum of `m` and an unknown number, where the `m` applications are already
    carried out, and then the same for `n` where the unknown number stood.  Along the way a numeral
    meets functions that are no variables and arguments that are not in normal form, and both
    are allowed for in `EvaluatesTo.numeral_app`. -/

namespace Redex.Nameless

/-! ### Evaluation without counting -/

/-- The term evaluates to the normal form. -/
def EvaluatesTo (t n : Nameless) : Prop :=
  ∃ v c, Evaluates t n v c

namespace EvaluatesTo

variable {ty : Ty} {fn fn' arg arg' body body' n : Nameless}

theorem of_isNormal (h : n.IsNormal) : EvaluatesTo n n := by
  obtain ⟨v, heval⟩ := h.evaluates
  exact ⟨v, 0, heval⟩

theorem bound (i : Nat) : EvaluatesTo (.bound i) (.bound i) :=
  ⟨1, 0, .bound i⟩

theorem free (x : String) : EvaluatesTo (.free x) (.free x) :=
  ⟨1, 0, .free x⟩

theorem abs (h : EvaluatesTo body body') : EvaluatesTo (.abs ty body) (.abs ty body') := by
  obtain ⟨v, c, heval⟩ := h
  exact ⟨v + 1, c, .abs heval⟩

theorem app (hfn : EvaluatesTo fn fn') (isAbs : fn'.isAbs = false) (harg : EvaluatesTo arg arg') :
    EvaluatesTo (.app fn arg) (.app fn' arg') := by
  obtain ⟨v, c, hfn⟩ := hfn
  obtain ⟨v', c', harg⟩ := harg
  exact ⟨_, _, .app hfn isAbs harg⟩

theorem redex (hfn : EvaluatesTo fn (.abs ty body)) (h : EvaluatesTo (body.instantiate arg) n) :
    EvaluatesTo (.app fn arg) n := by
  obtain ⟨v, c, hfn⟩ := hfn
  obtain ⟨v', c', heval⟩ := h
  exact ⟨_, _, .redex hfn heval⟩

end EvaluatesTo

/-! ### Repeated application -/

theorem subst_iterate_app (σ : Nat → Nameless) (f x : Nameless) (n : Nat) :
    ((app f)^[n] x).subst σ = (app (f.subst σ))^[n] (x.subst σ) := by
  have hstep : Function.Semiconj (subst σ) (app f) (app (f.subst σ)) := fun _ => rfl
  exact (hstep.iterate_right n).eq x

theorem reindex_iterate_app (ρ : Nat → Nat) (f x : Nameless) (n : Nat) :
    ((app f)^[n] x).reindex ρ = (app (f.reindex ρ))^[n] (x.reindex ρ) := by
  have hstep : Function.Semiconj (reindex ρ) (app f) (app (f.reindex ρ)) := fun _ => rfl
  exact (hstep.iterate_right n).eq x

theorem IsNormal.reindex {t : Nameless} (h : t.IsNormal) (ρ : Nat → Nat) :
    (t.reindex ρ).IsNormal := by
  induction t generalizing ρ with
  | missing | bound | free => trivial
  | abs ty body ih => exact ih h _
  | app fn arg ihf iha =>
    obtain ⟨isAbs, hfn, harg⟩ := h
    exact ⟨by rw [isAbs_reindex, isAbs], ihf hfn ρ, iha harg ρ⟩

/-- Functions that are applied as they are: normal forms that are no abstractions. -/
structure IsNeutral (f : Nameless) : Prop where
  isAbs : f.isAbs = false
  isNormal : f.IsNormal

theorem IsNeutral.bound (i : Nat) : IsNeutral (.bound i) :=
  ⟨rfl, trivial⟩

theorem IsNeutral.free (x : String) : IsNeutral (.free x) :=
  ⟨rfl, trivial⟩

theorem IsNeutral.app {f arg : Nameless} (hf : IsNeutral f) (harg : arg.IsNormal) :
    IsNeutral (.app f arg) :=
  ⟨rfl, hf.isAbs, hf.isNormal, harg⟩

theorem IsNeutral.lift {f : Nameless} (hf : IsNeutral f) : IsNeutral f.lift :=
  ⟨by rw [Nameless.lift, isAbs_reindex, hf.isAbs], hf.isNormal.reindex _⟩

/-- Under a function that is applied as it is, only the innermost argument is evaluated. -/
theorem EvaluatesTo.iterate_app {f x u : Nameless} (hf : IsNeutral f) (hx : EvaluatesTo x u)
    (n : Nat) : EvaluatesTo ((Nameless.app f)^[n] x) ((Nameless.app f)^[n] u) := by
  induction n with
  | zero => exact hx
  | succ n ih =>
    rw [Function.iterate_succ_apply', Function.iterate_succ_apply']
    exact .app (.of_isNormal hf.isNormal) hf.isAbs ih

/-! ### Numerals -/

/-- The numeral of a number. -/
def numeral (n : Nat) : Nameless :=
  .abs .missing (.abs .missing ((app (.bound 1))^[n] (.bound 0)))

/-- A numeral has no dangling indices. -/
theorem lift_numeral (n : Nat) : (numeral n).lift = numeral n := by
  simp only [numeral, lift, reindex, reindex_iterate_app, upIndex]

theorem EvaluatesTo.numeral (n : Nat) : EvaluatesTo (numeral n) (numeral n) :=
  .abs (.abs (.iterate_app (.bound 1) (.bound 0) n))

section Numeral

variable {fn f x u : Nameless} {n : Nat}

/-- A numeral and a function: the function is applied below a binder. -/
theorem EvaluatesTo.numeral_fn (hfn : EvaluatesTo fn (Nameless.numeral n)) (hf : IsNeutral f) :
    EvaluatesTo (.app fn f) (.abs .missing ((Nameless.app f.lift)^[n] (.bound 0))) := by
  refine .redex hfn ?_
  have hbody : (Nameless.abs .missing ((Nameless.app (.bound 1))^[n] (.bound 0))).instantiate f =
      .abs .missing ((Nameless.app f.lift)^[n] (.bound 0)) := by
    simp only [instantiate, subst, subst_iterate_app, up, single]
  rw [hbody]
  exact .abs (.iterate_app hf.lift (.bound 0) n)

/-- A numeral, a function and an argument, which is evaluated behind the applications. -/
theorem EvaluatesTo.numeral_app (hfn : EvaluatesTo fn (Nameless.numeral n)) (hf : IsNeutral f)
    (hx : EvaluatesTo x u) :
    EvaluatesTo (.app (.app fn f) x) ((Nameless.app f)^[n] u) := by
  refine .redex (hfn.numeral_fn hf) ?_
  have hbody : ((Nameless.app f.lift)^[n] (.bound 0)).instantiate x = (Nameless.app f)^[n] x := by
    have hf : f.lift.subst (single x) = f := instantiate_lift f x
    rw [instantiate, subst_iterate_app, hf]
    rfl
  rw [hbody]
  exact .iterate_app hf hx n

/-- A numeral of a function, applied `m` times: `n` applications of the function each time. -/
theorem EvaluatesTo.iterate_numeral_app (hfn : EvaluatesTo fn (Nameless.numeral n))
    (hf : IsNeutral f) (hx : EvaluatesTo x u) (m : Nat) :
    EvaluatesTo ((Nameless.app (.app fn f))^[m] x) ((Nameless.app f)^[m * n] u) := by
  induction m with
  | zero =>
    rw [Nat.zero_mul]
    exact hx
  | succ m ih =>
    rw [Function.iterate_succ_apply', Nat.succ_mul, Nat.add_comm, Function.iterate_add_apply]
    exact hfn.numeral_app hf ih

end Numeral

/-! ### Successor, sum and product -/

/-- The successor of a number: `λn.λf.λx.f (n f x)`. -/
def successor : Nameless :=
  .abs .missing (.abs .missing (.abs .missing
    (.app (.bound 1) (.app (.app (.bound 2) (.bound 1)) (.bound 0)))))

/-- The sum of two numbers: `λm.λn.λf.λx.m f (n f x)`. -/
def sum : Nameless :=
  .abs .missing (.abs .missing (.abs .missing (.abs .missing
    (.app (.app (.bound 3) (.bound 1)) (.app (.app (.bound 2) (.bound 1)) (.bound 0))))))

/-- The product of two numbers: `λm.λn.λf.m (n f)`. -/
def product : Nameless :=
  .abs .missing (.abs .missing (.abs .missing
    (.app (.bound 2) (.app (.bound 1) (.bound 0)))))

theorem evaluatesTo_successor (n : Nat) :
    EvaluatesTo (.app successor (numeral n)) (numeral (n + 1)) := by
  have hnormal : successor.IsNormal := by simp [successor, IsNormal, isAbs]
  refine .redex (.of_isNormal hnormal) ?_
  simp only [instantiate, subst, up, single, lift_numeral]
  refine .abs (.abs ?_)
  rw [Function.iterate_succ_apply']
  exact .app (.bound 1) rfl ((EvaluatesTo.numeral n).numeral_app (.bound 1) (.bound 0))

/-- The sum of a number and one that is not yet known. -/
theorem evaluatesTo_sum_numeral (m : Nat) :
    EvaluatesTo (.app sum (numeral m))
      (.abs .missing (.abs .missing (.abs .missing
        ((app (.bound 1))^[m] (.app (.app (.bound 2) (.bound 1)) (.bound 0)))))) := by
  have hnormal : sum.IsNormal := by simp [sum, IsNormal, isAbs]
  refine .redex (.of_isNormal hnormal) ?_
  simp only [instantiate, subst, up, single, lift_numeral]
  refine .abs (.abs (.abs ?_))
  have hunknown : IsNeutral (.app (.app (.bound 2) (.bound 1)) (.bound 0)) :=
    .app (.app (.bound 2) trivial) trivial
  exact (EvaluatesTo.numeral m).numeral_app (.bound 1) (.of_isNormal hunknown.isNormal)

theorem evaluatesTo_sum (m n : Nat) :
    EvaluatesTo (.app (.app sum (numeral m)) (numeral n)) (numeral (m + n)) := by
  refine .redex (evaluatesTo_sum_numeral m) ?_
  simp only [instantiate, subst, subst_iterate_app, up, single, lift_numeral]
  refine .abs (.abs ?_)
  rw [Function.iterate_add_apply]
  exact .iterate_app (.bound 1) ((EvaluatesTo.numeral n).numeral_app (.bound 1) (.bound 0)) m

/-- The product of a number and one that is not yet known. -/
theorem evaluatesTo_product_numeral (m : Nat) :
    EvaluatesTo (.app product (numeral m))
      (.abs .missing (.abs .missing (.abs .missing
        ((app (.app (.bound 2) (.bound 1)))^[m] (.bound 0))))) := by
  have hnormal : product.IsNormal := by simp [product, IsNormal, isAbs]
  refine .redex (.of_isNormal hnormal) ?_
  simp only [instantiate, subst, up, single, lift_numeral]
  refine .abs (.abs ?_)
  exact (EvaluatesTo.numeral m).numeral_fn (.app (.bound 1) trivial)

theorem evaluatesTo_product (m n : Nat) :
    EvaluatesTo (.app (.app product (numeral m)) (numeral n)) (numeral (m * n)) := by
  refine .redex (evaluatesTo_product_numeral m) ?_
  simp only [instantiate, subst, subst_iterate_app, up, single, lift_numeral]
  refine .abs (.abs ?_)
  exact (EvaluatesTo.numeral n).iterate_numeral_app (.bound 1) (.bound 0) m

end Redex.Nameless
