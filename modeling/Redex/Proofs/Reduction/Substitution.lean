import Redex.Proofs.Nameless.Form
import Redex.Proofs.Reduction.Supply
import Redex.Reduction.Substitution

/-! # Substitution avoids capture

    The invariant of a reduction is that every name of the terms in play is in use
    (`Term.NamedIn`).  Under it a fresh name is new to all of them, so that renaming a
    binder keeps the nameless form, and replacing a name that is itself in use is an update
    of the environment (`substitute_namelessIn`).  Substitution in turn keeps the
    invariant, and it changes neither the number of visits nor that of contractions. -/

namespace Redex

open Function

namespace Reduction.Progress

/-- What substitution may do to the progress of a reduction: put more names into use.  It
    neither counts visits nor contractions. -/
structure Extends (progress progress' : Progress) : Prop where
  steps : progress'.steps = progress.steps
  beta : progress'.stats.beta = progress.stats.beta
  used : ∀ x ∈ progress.supply.used, x ∈ progress'.supply.used

theorem Extends.refl (progress : Progress) : progress.Extends progress :=
  ⟨rfl, rfl, fun _ hx => hx⟩

theorem Extends.trans {p q r : Progress} (hpq : p.Extends q) (hqr : q.Extends r) :
    p.Extends r :=
  ⟨hqr.steps.trans hpq.steps, hqr.beta.trans hpq.beta,
    fun x hx => hqr.used x (hpq.used x hx)⟩

section renameBinder

variable {progress progress' : Progress} {x fresh : String}

/-- The fresh name of a binder is the next one of the supply. -/
theorem renameBinder_supply (h : progress.renameBinder x = (fresh, progress')) :
    progress.supply.fresh x = (fresh, progress'.supply) := by
  cases h
  rfl

theorem renameBinder_extends (h : progress.renameBinder x = (fresh, progress')) :
    progress.Extends progress' := by
  cases h
  refine ⟨rfl, ?_, fun y hy => ?_⟩
  · simp [stats, record, Rule.isBeta]
  · exact (Supply.mem_fresh_used progress.supply x y).2 (Or.inr hy)

theorem renameBinder_not_mem (h : progress.renameBinder x = (fresh, progress')) :
    fresh ∉ progress.supply.used := by
  cases h
  exact Supply.fresh_not_mem progress.supply x

theorem renameBinder_mem (h : progress.renameBinder x = (fresh, progress')) :
    fresh ∈ progress'.supply.used := by
  cases h
  exact (Supply.mem_fresh_used progress.supply x _).2 (Or.inl rfl)

end renameBinder

end Reduction.Progress

namespace Term

open Reduction

/-! ### Renaming -/

theorem mentions_rename {t : Term} {old new x : String} (h : (t.rename old new).Mentions x) :
    x = new ∨ t.Mentions x := by
  induction t with
  | missing => exact Or.inr h
  | var y =>
    simp only [rename, Mentions] at h ⊢
    split at h
    · exact Or.inl h
    · exact Or.inr h
  | abs y ty body ih =>
    unfold rename at h
    split at h
    · exact Or.inr h
    · rcases h with h | h
      · exact Or.inr (Or.inl h)
      · exact (ih h).imp_right Or.inr
  | app fn arg ihf iha =>
    rcases h with h | h
    · exact (ihf h).imp_right Or.inl
    · exact (iha h).imp_right Or.inr

theorem NamedIn.rename {t : Term} {used used' : NameSet} {old new : String}
    (h : t.NamedIn used) (hsub : ∀ x ∈ used, x ∈ used') (hnew : new ∈ used') :
    (t.rename old new).NamedIn used' := by
  intro x hx
  rcases mentions_rename hx with rfl | hx
  · exact hnew
  · exact hsub x (h x hx)

/-- Renaming to a name that is new to the term, as an update of the environment. -/
theorem namelessIn_rename {t : Term} {old new : String} (hnew : ¬ t.Mentions new)
    (env : Env) : (t.rename old new).namelessIn env = t.namelessIn (update env old (env new)) := by
  induction t generalizing env with
  | missing => rfl
  | var y =>
    by_cases hy : y = old
    · simp [rename, namelessIn, hy]
    · simp [rename, namelessIn, hy]
  | abs y ty body ih =>
    simp only [Mentions, not_or] at hnew
    by_cases hy : y = old
    · subst hy
      simp only [rename, namelessIn, if_true]
      rw [Env.bind_update_self]
    · simp only [rename, namelessIn, hy, if_false]
      rw [ih hnew.2, Env.bind_of_ne _ hnew.1, Env.bind_update_of_ne _ (Ne.symm hy)]
  | app fn arg ihf iha =>
    simp only [Mentions, not_or] at hnew
    simp only [rename, namelessIn]
    rw [ihf hnew.1, iha hnew.2]

/-- Renaming a binder to a name that is new to its body keeps the nameless form. -/
theorem namelessIn_rename_bind {t : Term} {old new : String} (hnew : ¬ t.Mentions new)
    (env : Env) : (t.rename old new).namelessIn (env.bind new) = t.namelessIn (env.bind old) := by
  rw [namelessIn_rename hnew, Env.bind_self]
  apply namelessIn_congr
  intro y hy
  by_cases hyo : y = old
  · rw [hyo, update_self, Env.bind_self]
  · have hyn : y ≠ new := fun h => hnew (h ▸ hy.mentions)
    rw [update_of_ne hyo, Env.bind_of_ne _ hyn, Env.bind_of_ne _ hyo]

/-! ### Substitution -/

section substitute

variable (t : Term) (name : String) (value : Term) (avoid : NameSet) (progress : Progress)

theorem substitute_extends :
    progress.Extends (t.substitute name value avoid progress).2 := by
  fun_induction substitute t name value avoid progress with
  | case1 progress => exact .refl progress
  | case2 progress x => exact .refl progress
  | case3 progress ty body => exact .refl progress
  | case4 progress x ty body hx havoid fresh progress₁ hfresh body₁ progress₂ hbody ih =>
    rw [hbody] at ih
    exact (Progress.renameBinder_extends hfresh).trans ih
  | case5 progress x ty body hx havoid body₁ progress₁ hbody ih =>
    rw [hbody] at ih
    exact ih
  | case6 progress fn arg fn₁ progress₁ hfn arg₁ progress₂ harg ihf iha =>
    rw [hfn] at ihf
    rw [harg] at iha
    exact ihf.trans iha

variable {t name value avoid progress}

/-- Substitution keeps all names in use. -/
theorem NamedIn.substitute (ht : t.NamedIn progress.supply.used)
    (hvalue : value.NamedIn progress.supply.used) :
    (t.substitute name value avoid progress).1.NamedIn
      (t.substitute name value avoid progress).2.supply.used := by
  fun_induction Term.substitute t name value avoid progress with
  | case1 progress => exact ht
  | case2 progress x =>
    dsimp only
    split
    · exact hvalue
    · exact ht
  | case3 progress ty body => exact ht
  | case4 progress x ty body hx havoid fresh progress₁ hfresh body₁ progress₂ hbody ih =>
    have hext := Progress.renameBinder_extends hfresh
    have hmem := Progress.renameBinder_mem hfresh
    have hgrow := substitute_extends (body.rename x fresh) name value avoid progress₁
    rw [hbody] at ih hgrow
    exact .abs (hgrow.used fresh hmem)
      (ih (ht.of_abs.2.rename hext.used hmem) (hvalue.mono hext.used))
  | case5 progress x ty body hx havoid body₁ progress₁ hbody ih =>
    have hgrow := substitute_extends body name value avoid progress
    rw [hbody] at ih hgrow
    exact .abs (hgrow.used x ht.of_abs.1) (ih ht.of_abs.2 hvalue)
  | case6 progress fn arg fn₁ progress₁ hfn arg₁ progress₂ harg ihf iha =>
    have hgrow := substitute_extends fn name value avoid progress
    have hgrow' := substitute_extends arg name value avoid progress₁
    rw [hfn] at ihf hgrow
    rw [harg] at iha hgrow'
    exact .app ((ihf ht.of_app.1 hvalue).mono hgrow'.used)
      (iha (ht.of_app.2.mono hgrow.used) (hvalue.mono hgrow.used))

/-- Replacing a name that is in use, as an update of the environment.  No free variable of
    the value is captured, and no bound variable is taken for the name. -/
theorem substitute_namelessIn (ht : t.NamedIn progress.supply.used)
    (hvalue : value.NamedIn progress.supply.used) (hname : name ∈ progress.supply.used)
    (havoid : ∀ x, x ∈ avoid ↔ value.HasFree x) (env : Env) :
    (t.substitute name value avoid progress).1.namelessIn env =
      t.namelessIn (update env name (value.namelessIn env)) := by
  fun_induction substitute t name value avoid progress generalizing env with
  | case1 progress => rfl
  | case2 progress x =>
    by_cases hx : x = name
    · simp [hx, namelessIn]
    · simp [hx, namelessIn]
  | case3 progress ty body =>
    -- the name is bound again, so what it stands for outside does not matter
    simp only [namelessIn]
    rw [Env.bind_update_self]
  | case4 progress x ty body hx hcapture fresh progress₁ hfresh body₁ progress₂ hbody ih =>
    have hext := Progress.renameBinder_extends hfresh
    have hmem := Progress.renameBinder_mem hfresh
    have hnew := Progress.renameBinder_not_mem hfresh
    have hfv : ¬ value.HasFree fresh := fun h => hnew (hvalue fresh h.mentions)
    have hfb : ¬ body.Mentions fresh := fun h => hnew (ht.of_abs.2 fresh h)
    have hfn : name ≠ fresh := fun h => hnew (h ▸ hname)
    have ih := ih (ht.of_abs.2.rename hext.used hmem) (hvalue.mono hext.used)
      (hext.used name hname) (env.bind fresh)
    rw [hbody] at ih
    simp only [namelessIn]
    rw [ih, namelessIn_bind_of_not_free env hfv, ← Env.bind_update_of_ne env hfn,
      namelessIn_rename_bind hfb]
  | case5 progress x ty body hx hcapture body₁ progress₁ hbody ih =>
    have hfv : ¬ value.HasFree x := fun h => hcapture ((havoid x).2 h)
    have ih := ih ht.of_abs.2 hvalue hname (env.bind x)
    rw [hbody] at ih
    simp only [namelessIn]
    rw [ih, namelessIn_bind_of_not_free env hfv, Env.bind_update_of_ne env (Ne.symm hx)]
  | case6 progress fn arg fn₁ progress₁ hfn arg₁ progress₂ harg ihf iha =>
    have hgrow := substitute_extends fn name value avoid progress
    rw [hfn] at ihf hgrow
    have ihf := ihf ht.of_app.1 hvalue hname env
    have iha := iha (ht.of_app.2.mono hgrow.used) (hvalue.mono hgrow.used) (hgrow.used name hname) env
    rw [harg] at iha
    simp only [namelessIn]
    rw [ihf, iha]

end substitute

end Term

end Redex
