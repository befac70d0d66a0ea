import Redex.Proofs.Reduction.Course

/-! # What reduction keeps at the nodes of a term

    Reduction copies, drops and moves the nodes of a term.  The only new labels that it makes are
    those of a renamed binder and of its variable; the annotation stays with the binder.  So a
    property of all labels is kept if it passes from a binder to its fresh names
    (`Normalizes.every`). -/

namespace Redex

open Reduction

/-- What stands at a node of a term. -/
inductive Label where
  | missing
  | var (name : String)
  | abs (binder : String) (ty : Ty)

/-- The property passes from a binder to each of its fresh names, and to their variables. -/
def Label.Renewable (p : Label → Prop) : Prop :=
  ∀ binder ty number, p (.abs binder ty) →
    p (.abs (Supply.candidate binder number) ty) ∧ p (.var (Supply.candidate binder number))

/-- All labels of the term have the property. -/
def Term.Every (p : Label → Prop) : Term → Prop
  | .missing => p .missing
  | .var x => p (.var x)
  | .abs x ty body => p (.abs x ty) ∧ body.Every p
  | .app fn arg => fn.Every p ∧ arg.Every p

namespace Term.Every

variable {p : Label → Prop} {t value : Term}

theorem rename {old new : String} (ht : t.Every p) (hnew : p (.var new)) :
    (t.rename old new).Every p := by
  induction t with
  | missing => exact ht
  | var x =>
    unfold Term.rename
    split
    · exact hnew
    · exact ht
  | abs x ty body ih =>
    unfold Term.rename
    split
    · exact ht
    · exact ⟨ht.1, ih ht.2⟩
  | app fn arg ihf iha => exact ⟨ihf ht.1, iha ht.2⟩

theorem substitute (hp : Label.Renewable p) (ht : t.Every p) (hvalue : value.Every p)
    (name : String) (avoid : NameSet) (progress : Progress) :
    (t.substitute name value avoid progress).1.Every p := by
  fun_induction Term.substitute t name value avoid progress with
  | case1 progress => exact ht
  | case2 progress x =>
    dsimp only
    split
    · exact hvalue
    · exact ht
  | case3 progress ty body => exact ht
  | case4 progress x ty body hx havoid fresh progress₁ hfresh body₁ progress₂ hbody ih =>
    -- the binder is renamed, so its label is one of those that the property passes on to
    obtain ⟨number, rfl⟩ : ∃ number, fresh = Supply.candidate x number := by
      cases hfresh
      exact ⟨_, rfl⟩
    obtain ⟨hbinder, hvar⟩ := hp x ty number ht.1
    have ih := ih (ht.2.rename hvar)
    rw [hbody] at ih
    exact ⟨hbinder, ih⟩
  | case5 progress x ty body hx havoid body₁ progress₁ hbody ih =>
    have ih := ih ht.2
    rw [hbody] at ih
    exact ⟨ht.1, ih⟩
  | case6 progress fn arg fn₁ progress₁ hfn arg₁ progress₂ harg ihf iha =>
    have ihf := ihf ht.1
    have iha := iha ht.2
    rw [hfn] at ihf
    rw [harg] at iha
    exact ⟨ihf, iha⟩

end Term.Every

theorem Reduction.Normalizes.every {p : Label → Prop} (hp : Label.Renewable p) {t n : Term}
    {progress progress' : Progress} (h : Normalizes t progress n progress') (ht : t.Every p) :
    n.Every p := by
  induction h with
  | missing => exact ht
  | var => exact ht
  | abs _ ih => exact ⟨ht.1, ih ht.2⟩
  | @redex x ty fn arg body contractum n p₀ p₁ p₂ p₃ hfn hcontract hcontractum ihf ih =>
    have hbody := (ihf ht.1).2
    have hsubst := hbody.substitute hp ht.2 x arg.free (p₁.record (.beta x))
    rw [hcontract] at hsubst
    exact ih hsubst
  | app _ _ _ ihf iha => exact ⟨ihf ht.1, iha ht.2⟩

end Redex
