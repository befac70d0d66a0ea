import Redex.Ty

/-! # Nameless terms

    Lambda terms in which a bound variable is the number of binders between it and its own
    one, and a free variable keeps its name.  Terms that differ only in the names of bound
    variables have the same nameless form, and substitution cannot capture anything: it
    counts binders instead of renaming them.

    * `reindex` maps the dangling indices of a term, `lift` makes room for one more binder.
    * `subst` replaces all dangling indices at once, `instantiate` only the innermost.
    * `replace` replaces one free name. -/

namespace Redex

/-- A lambda term without names for its bound variables. -/
inductive Nameless where
  | missing
  /-- A variable bound by the abstraction with `index` others in between. -/
  | bound (index : Nat)
  /-- A free variable. -/
  | free (name : String)
  | abs (ty : Ty) (body : Nameless)
  | app (fn arg : Nameless)
deriving DecidableEq, Repr

namespace Nameless

def isVar : Nameless → Bool
  | .bound _ => true
  | .free _ => true
  | _ => false

def isAbs : Nameless → Bool
  | .abs _ _ => true
  | _ => false

/-! ### Indices -/

/-- A map of indices below one more binder. -/
def upIndex (ρ : Nat → Nat) : Nat → Nat
  | 0 => 0
  | i + 1 => ρ i + 1

/-- Maps the dangling indices of a term. -/
def reindex (ρ : Nat → Nat) : Nameless → Nameless
  | .missing => .missing
  | .bound i => .bound (ρ i)
  | .free x => .free x
  | .abs ty body => .abs ty (body.reindex (upIndex ρ))
  | .app fn arg => .app (fn.reindex ρ) (arg.reindex ρ)

/-- The same term below one more binder. -/
def lift (t : Nameless) : Nameless :=
  t.reindex (· + 1)

theorem reindex_reindex (t : Nameless) (ρ ρ' : Nat → Nat) :
    (t.reindex ρ).reindex ρ' = t.reindex (ρ' ∘ ρ) := by
  induction t generalizing ρ ρ' with
  | missing => rfl
  | bound i => rfl
  | free x => rfl
  | abs ty body ih =>
    have hup : upIndex ρ' ∘ upIndex ρ = upIndex (ρ' ∘ ρ) := by
      funext i
      cases i <;> rfl
    simp only [reindex]
    rw [ih, hup]
  | app fn arg ihf iha =>
    simp only [reindex]
    rw [ihf, iha]

theorem lift_reindex (t : Nameless) (ρ : Nat → Nat) :
    (t.reindex ρ).lift = t.lift.reindex (upIndex ρ) := by
  unfold lift
  rw [reindex_reindex, reindex_reindex]
  rfl

theorem isVar_lift (t : Nameless) : t.lift.isVar = t.isVar := by
  cases t <;> rfl

/-- A lifted term leaves the innermost index to the new binder. -/
theorem lift_ne_bound_zero (t : Nameless) : t.lift ≠ .bound 0 := by
  cases t <;> simp [lift, reindex]

/-! ### Substitution for indices -/

/-- A substitution below one more binder. -/
def up (σ : Nat → Nameless) : Nat → Nameless
  | 0 => .bound 0
  | i + 1 => (σ i).lift

/-- Replaces each dangling index `i` by `σ i`. -/
def subst (σ : Nat → Nameless) : Nameless → Nameless
  | .missing => .missing
  | .bound i => σ i
  | .free x => .free x
  | .abs ty body => .abs ty (body.subst (up σ))
  | .app fn arg => .app (fn.subst σ) (arg.subst σ)

/-- The substitution of a term for the innermost index; the others move one binder out. -/
def single (arg : Nameless) : Nat → Nameless
  | 0 => arg
  | i + 1 => .bound i

/-- The body of an abstraction with an argument for its bound variable. -/
def instantiate (body arg : Nameless) : Nameless :=
  body.subst (single arg)

theorem subst_reindex (t : Nameless) (ρ : Nat → Nat) (σ : Nat → Nameless) :
    (t.reindex ρ).subst σ = t.subst (σ ∘ ρ) := by
  induction t generalizing ρ σ with
  | missing => rfl
  | bound i => rfl
  | free x => rfl
  | abs ty body ih =>
    have hup : up σ ∘ upIndex ρ = up (σ ∘ ρ) := by
      funext i
      cases i <;> rfl
    simp only [reindex, subst]
    rw [ih, hup]
  | app fn arg ihf iha =>
    simp only [reindex, subst]
    rw [ihf, iha]

theorem reindex_subst (t : Nameless) (σ : Nat → Nameless) (ρ : Nat → Nat) :
    (t.subst σ).reindex ρ = t.subst (fun i => (σ i).reindex ρ) := by
  induction t generalizing σ ρ with
  | missing => rfl
  | bound i => rfl
  | free x => rfl
  | abs ty body ih =>
    have hup : (fun i => (up σ i).reindex (upIndex ρ)) = up (fun i => (σ i).reindex ρ) := by
      funext i
      cases i with
      | zero => rfl
      | succ i => exact (lift_reindex (σ i) ρ).symm
    simp only [subst, reindex]
    rw [ih, hup]
  | app fn arg ihf iha =>
    simp only [subst, reindex]
    rw [ihf, iha]

theorem lift_subst (t : Nameless) (σ : Nat → Nameless) :
    (t.subst σ).lift = t.lift.subst (up σ) := by
  unfold lift
  rw [reindex_subst, subst_reindex]
  rfl

theorem subst_bound (t : Nameless) : t.subst .bound = t := by
  induction t with
  | missing => rfl
  | bound i => rfl
  | free x => rfl
  | abs ty body ih =>
    have hup : up .bound = .bound := by
      funext i
      cases i <;> rfl
    rw [subst, hup, ih]
  | app fn arg ihf iha => rw [subst, ihf, iha]

/-- Nothing is replaced in a term that does not use the innermost index. -/
theorem instantiate_lift (t arg : Nameless) : t.lift.instantiate arg = t := by
  unfold instantiate lift
  rw [subst_reindex]
  exact subst_bound t

theorem lift_injective {t u : Nameless} (h : t.lift = u.lift) : t = u := by
  rw [← instantiate_lift t .missing, h, instantiate_lift]

/-! ### Substitution for names -/

/-- Replaces the free variable `x` by a term, which is lifted at every binder on the way. -/
def replace (x : String) : Nameless → Nameless → Nameless
  | .missing, _ => .missing
  | .bound i, _ => .bound i
  | .free y, u => if y = x then u else .free y
  | .abs ty body, u => .abs ty (body.replace x u.lift)
  | .app fn arg, u => .app (fn.replace x u) (arg.replace x u)

theorem reindex_replace (t u : Nameless) (x : String) (ρ : Nat → Nat) :
    (t.replace x u).reindex ρ = (t.reindex ρ).replace x (u.reindex ρ) := by
  induction t generalizing u ρ with
  | missing => rfl
  | bound i => rfl
  | free y =>
    simp only [replace, reindex]
    split <;> rfl
  | abs ty body ih =>
    simp only [replace, reindex]
    rw [ih, ← lift_reindex]
  | app fn arg ihf iha =>
    simp only [replace, reindex]
    rw [ihf, iha]

theorem lift_replace (t u : Nameless) (x : String) :
    (t.replace x u).lift = t.lift.replace x u.lift :=
  reindex_replace t u x (· + 1)

end Nameless

end Redex
