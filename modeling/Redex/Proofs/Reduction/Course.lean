import Mathlib.Logic.Relation
import Redex.Proofs.Reduction.Substitution
import Redex.Reduction.Normalization

/-! # The course of a reduction

    A reduction does three things to its progress: it counts a visit, logs a contraction, or
    takes a fresh name and logs the renaming (`Progress.Move`).  What each of these keeps is
    kept by every reduction, whether it returns or runs out of bounds.

    A reduction that returns is a derivation of `Normalizes`.  It holds the terms and the
    progress of all visits below, and knows of no ceiling. -/

namespace Redex

open Relation

namespace Reduction.Progress

/-! ### Moves -/

/-- One thing that a reduction does to its progress. -/
inductive Move : Progress → Progress → Prop where
  /-- A subterm is visited. -/
  | visit (progress : Progress) : Move progress progress.tick
  /-- A redex is about to be contracted. -/
  | contract (progress : Progress) (binder : String) :
      Move progress (progress.record (.beta binder))
  /-- A binder gives way to a fresh name. -/
  | rename (progress : Progress) (binder : String) :
      Move progress (progress.renameBinder binder).2

/-- What a reduction does to its progress between two points. -/
abbrev Moves : Progress → Progress → Prop :=
  ReflTransGen Move

@[simp] theorem tick_steps (progress : Progress) : progress.tick.steps = progress.steps + 1 :=
  rfl

variable {progress progress' : Progress}

theorem Moves.steps_le (h : progress.Moves progress') : progress.steps ≤ progress'.steps := by
  induction h with
  | refl => exact Nat.le_refl _
  | tail _ hmove ih =>
    cases hmove with
    | visit => exact Nat.le_succ_of_le ih
    | contract => exact ih
    | rename => exact ih

/-- The log only grows, at the end where the latest event stands. -/
theorem Moves.log_suffix (h : progress.Moves progress') : progress.log <:+ progress'.log := by
  induction h with
  | refl => exact List.suffix_rfl
  | tail _ hmove ih =>
    cases hmove with
    | visit => exact ih
    | contract => exact ih.trans (List.suffix_cons _ _)
    | rename => exact ih.trans (List.suffix_cons _ _)

end Reduction.Progress

open Reduction Progress

namespace Term

theorem substitute_moves (t : Term) (name : String) (value : Term) (avoid : NameSet)
    (progress : Progress) : progress.Moves (t.substitute name value avoid progress).2 := by
  fun_induction substitute t name value avoid progress with
  | case1 progress => exact .refl
  | case2 progress x => exact .refl
  | case3 progress ty body => exact .refl
  | case4 progress x ty body hx havoid fresh progress₁ hfresh body₁ progress₂ hbody ih =>
    rw [hbody] at ih
    have hmove := Move.rename progress x
    rw [hfresh] at hmove
    exact .head hmove ih
  | case5 progress x ty body hx havoid body₁ progress₁ hbody ih =>
    rw [hbody] at ih
    exact ih
  | case6 progress fn arg fn₁ progress₁ hfn arg₁ progress₂ harg ihf iha =>
    rw [hfn] at ihf
    rw [harg] at iha
    exact ihf.trans iha

theorem exists_of_isAbs {t : Term} (h : t.isAbs = true) :
    ∃ binder ty body, t = .abs binder ty body := by
  cases t with
  | abs binder ty body => exact ⟨binder, ty, body, rfl⟩
  | missing | var | app => cases h

end Term

namespace Reduction

/-- The contraction of an abstraction never fails, and is the substitution in its body. -/
theorem contract_of_isAbs {ceiling : Nat} {fn arg : Term} {progress progress' : Progress}
    {result : Except ReduceError Term} (hfn : fn.isAbs = true)
    (h : contract ceiling fn arg progress = (result, progress')) :
    ∃ binder ty body contractum, fn = .abs binder ty body ∧ result = .ok contractum ∧
      body.substitute binder arg arg.free (progress.record (.beta binder)) =
        (contractum, progress') := by
  obtain ⟨binder, ty, body, rfl⟩ := Term.exists_of_isAbs hfn
  cases h
  exact ⟨binder, ty, body, _, rfl, rfl, rfl⟩

theorem contract_moves (ceiling : Nat) (fn arg : Term) (progress : Progress) :
    progress.Moves (contract ceiling fn arg progress).2 := by
  unfold contract
  split
  · rename_i binder ty body
    exact .head (.contract progress binder) (body.substitute_moves binder arg arg.free _)
  · exact .refl

/-- Whether it returns or not, a visit is counted and then makes nothing but moves. -/
theorem visit_moves (ceiling depth : Nat) (t : Term) (progress : Progress) :
    progress.tick.Moves (visit ceiling depth t progress).2 := by
  fun_induction visit ceiling depth t progress with
  | case1 | case2 | case3 | case4 => exact .refl
  | case5 depth progress _ hle binder ty body e progress₁ hbody ih
  | case6 depth progress _ hle binder ty body body' progress₁ hbody ih =>
    rw [hbody] at ih
    exact .head (.visit _) ih
  | case7 depth progress _ hle fn arg e progress₁ hfn ih =>
    rw [hfn] at ih
    exact .head (.visit _) ih
  | case8 depth progress _ hle fn arg fn' progress₁ hfn isAbs e progress₂ hcontract ihf =>
    have hmoves := contract_moves ceiling fn' arg progress₁
    rw [hfn] at ihf
    rw [hcontract] at hmoves
    exact .head (.visit _) (ihf.trans hmoves)
  | case9 depth progress _ hle fn arg fn' progress₁ hfn isAbs u progress₂ hcontract ihf ih =>
    have hmoves := contract_moves ceiling fn' arg progress₁
    rw [hfn] at ihf
    rw [hcontract] at hmoves
    exact .head (.visit _) ((ihf.trans hmoves).trans (.head (.visit _) ih))
  | case10 depth progress _ hle fn arg fn' progress₁ hfn isAbs e progress₂ harg ihf iha
  | case11 depth progress _ hle fn arg fn' progress₁ hfn isAbs arg' progress₂ harg ihf iha =>
    rw [hfn] at ihf
    rw [harg] at iha
    exact .head (.visit _) (ihf.trans (.head (.visit _) iha))

/-! ### Reductions that return -/

/-- A term is brought to normal form, and the progress of the reduction from one point to
    another. -/
inductive Normalizes : Term → Progress → Term → Progress → Prop where
  | missing (p : Progress) : Normalizes .missing p .missing p.tick
  | var (x : String) (p : Progress) : Normalizes (.var x) p (.var x) p.tick
  | abs {x : String} {ty : Ty} {body body' : Term} {p p' : Progress}
      (hbody : Normalizes body p.tick body' p') :
      Normalizes (.abs x ty body) p (.abs x ty body') p'
  | redex {x : String} {ty : Ty} {fn arg body contractum n : Term} {p p₁ p₂ p₃ : Progress}
      (hfn : Normalizes fn p.tick (.abs x ty body) p₁)
      (hcontract : body.substitute x arg arg.free (p₁.record (.beta x)) = (contractum, p₂))
      (hcontractum : Normalizes contractum p₂ n p₃) : Normalizes (.app fn arg) p n p₃
  | app {fn fn' arg arg' : Term} {p p₁ p₂ : Progress} (hfn : Normalizes fn p.tick fn' p₁)
      (isAbs : fn'.isAbs = false) (harg : Normalizes arg p₁ arg' p₂) :
      Normalizes (.app fn arg) p (.app fn' arg') p₂

/-- A visit that returns has brought its term to normal form. -/
theorem normalizes_of_visit {ceiling depth : Nat} {t n : Term} {progress progress' : Progress}
    (h : visit ceiling depth t progress = (.ok n, progress')) :
    Normalizes t progress n progress' := by
  fun_induction visit ceiling depth t progress generalizing n progress'
  case case1 | case2 | case5 | case7 | case8 | case10 => cases h
  case case3 =>
    cases h
    exact .missing _
  case case4 =>
    cases h
    exact .var _ _
  case case6 hbody ih =>
    cases h
    exact .abs (ih hbody)
  case case9 hfn isAbs u progress₂ hcontract ihf ih =>
    obtain ⟨x, ty, body, contractum, rfl, hok, hsubst⟩ := contract_of_isAbs isAbs hcontract
    cases hok
    exact .redex (ihf hfn) hsubst (ih h)
  case case11 hfn isAbs arg' progress₂ harg ihf iha =>
    cases h
    exact .app (ihf hfn) (by simpa using isAbs) (iha harg)

end Reduction

end Redex
