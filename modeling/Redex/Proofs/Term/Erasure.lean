import Redex.Proofs.Term.Names

/-! # Terms without their annotations

    Erasure takes all annotations off a term and leaves its names alone, those that occur and
    those that occur free. -/

namespace Redex.Term

/-- The term without its annotations. -/
def erase : Term → Term
  | .missing => .missing
  | .var x => .var x
  | .abs x _ body => .abs x .missing body.erase
  | .app fn arg => .app fn.erase arg.erase

/-- The annotations of a term, from left to right.  A binder without one has `Ty.missing`. -/
def annotations : Term → List Ty
  | .missing => []
  | .var _ => []
  | .abs _ ty body => ty :: body.annotations
  | .app fn arg => fn.annotations ++ arg.annotations

@[simp] theorem isAbs_erase (t : Term) : t.erase.isAbs = t.isAbs := by
  cases t <;> rfl

theorem addNames_erase (t : Term) (names : NameSet) :
    t.erase.addNames names = t.addNames names := by
  induction t generalizing names with
  | missing => rfl
  | var x => rfl
  | abs x ty body ih => exact ih (names.insert x)
  | app fn arg ihf iha =>
    show arg.erase.addNames (fn.erase.addNames names) = arg.addNames (fn.addNames names)
    rw [ihf, iha]

@[simp] theorem names_erase (t : Term) : t.erase.names = t.names :=
  addNames_erase t ∅

@[simp] theorem hasFree_erase (t : Term) (x : String) : t.erase.HasFree x ↔ t.HasFree x := by
  induction t with
  | missing => rfl
  | var y => rfl
  | abs y ty body ih =>
    unfold erase HasFree
    rw [ih]
  | app fn arg ihf iha =>
    unfold erase HasFree
    rw [ihf, iha]

end Redex.Term
