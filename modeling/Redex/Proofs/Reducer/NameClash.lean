import Redex.Proofs.Reduction.Substitution
import Redex.Reducer

/-! # When substitution is the substitution of nameless terms

    A reducer puts the names of both terms into use before it substitutes, but not the name
    that it replaces.  If that name occurs in neither term, it may be handed out as the
    fresh name of a renamed binder.  The occurrences of that binder's variable are then
    taken for the name and replaced.

    `NameClash` says when this happens.  Substitution is the substitution of the nameless
    form in all other cases and in no such case
    (`substitute_nameless_eq_iff_not_nameClash`). -/

namespace Redex

open Function Reduction

/-! ### The names that a substitution hands out -/

/-- The binders that a substitution renames, in the order in which it does, each with
    whether its variable occurs. -/
def Term.renamed (name : String) (avoid : NameSet) : Term → List (String × Bool)
  | .missing => []
  | .var _ => []
  | .abs x _ body =>
    if x = name then []
    else if avoid.contains x then
      (x, body.free.contains x) :: body.renamed name avoid
    else body.renamed name avoid
  | .app fn arg => fn.renamed name avoid ++ arg.renamed name avoid

namespace Reduction.Supply

/-- The fresh names that a supply hands out for a list of binders, one after the other. -/
def freshNames : Supply → List (String × Bool) → List (String × Bool)
  | _, [] => []
  | supply, (binder, occurs) :: binders =>
    ((supply.fresh binder).1, occurs) :: (supply.fresh binder).2.freshNames binders

/-- A supply behind these fresh names. -/
def after : Supply → List (String × Bool) → Supply
  | supply, [] => supply
  | supply, (binder, _) :: binders => (supply.fresh binder).2.after binders

theorem freshNames_append (supply : Supply) (binders binders' : List (String × Bool)) :
    supply.freshNames (binders ++ binders') =
      supply.freshNames binders ++ (supply.after binders).freshNames binders' := by
  induction binders generalizing supply with
  | nil => rfl
  | cons binder binders ih =>
    simp only [List.cons_append, freshNames, after]
    rw [ih]

theorem after_append (supply : Supply) (binders binders' : List (String × Bool)) :
    supply.after (binders ++ binders') = (supply.after binders).after binders' := by
  induction binders generalizing supply with
  | nil => rfl
  | cons binder binders ih =>
    simp only [List.cons_append, after]
    rw [ih]

/-- A name in use is not handed out. -/
theorem not_mem_freshNames {supply : Supply} {name : String} (h : name ∈ supply.used)
    (occurs : Bool) (binders : List (String × Bool)) :
    (name, occurs) ∉ supply.freshNames binders := by
  induction binders generalizing supply with
  | nil => simp [freshNames]
  | cons binder binders ih =>
    simp only [freshNames, List.mem_cons, Prod.mk.injEq, not_or, not_and]
    constructor
    · intro hname
      exact absurd (hname ▸ h) (fresh_not_mem supply binder.1)
    · exact ih ((mem_fresh_used supply binder.1 name).2 (Or.inr h))

end Reduction.Supply

namespace Term

theorem hasFree_rename {t : Term} {old new x : String} (hold : x ≠ old) (hnew : x ≠ new) :
    (t.rename old new).HasFree x ↔ t.HasFree x := by
  induction t with
  | missing => rfl
  | var y =>
    by_cases hy : y = old
    · simp [rename, HasFree, hy, hold, hnew]
    · simp [rename, HasFree, hy]
  | abs y ty body ih =>
    unfold rename
    split
    · rfl
    · simp only [HasFree]
      rw [ih]
  | app fn arg ihf iha =>
    simp only [rename, HasFree]
    rw [ihf, iha]

/-- Renaming to a new name does not change which binders will be renamed. -/
theorem renamed_rename {t : Term} {old new : String} (hnew : ¬ t.Mentions new)
    (name : String) (avoid : NameSet) :
    (t.rename old new).renamed name avoid = t.renamed name avoid := by
  induction t with
  | missing => rfl
  | var y => rfl
  | abs y ty body ih =>
    simp only [Mentions, not_or] at hnew
    unfold rename
    split
    · rfl
    · rename_i hy
      have hfree : (body.rename old new).free.contains y = body.free.contains y := by
        rw [Bool.eq_iff_iff, ← Std.TreeSet.mem_iff_contains, ← Std.TreeSet.mem_iff_contains,
          mem_free, mem_free]
        exact hasFree_rename hy (Ne.symm hnew.1)
      simp only [renamed]
      rw [ih hnew.2, hfree]
  | app fn arg ihf iha =>
    simp only [Mentions, not_or] at hnew
    simp only [rename, renamed]
    rw [ihf hnew.1, iha hnew.2]

/-- A binder is renamed to the name that is replaced below it: the result is right only if
    there is no occurrence to be taken for the name. -/
theorem namelessIn_rename_name_iff {body value : Term} {x name : String}
    (hbody : ¬ body.Mentions name) (hvalue : ¬ value.HasFree name) (env : Env) :
    (body.rename x name).namelessIn
        (update (env.bind name) name (value.namelessIn (env.bind name))) =
      body.namelessIn (env.bind x) ↔ ¬ body.HasFree x := by
  rw [namelessIn_rename hbody, update_self, namelessIn_bind_of_not_free env hvalue,
    namelessIn_eq_iff]
  constructor
  · intro h hx
    have hlift := h x hx
    rw [update_self, Env.bind_self] at hlift
    exact Nameless.lift_ne_bound_zero _ hlift
  · intro hx y hy
    have hyx : y ≠ x := fun h => hx (h ▸ hy)
    have hyn : y ≠ name := fun h => hbody (h ▸ hy.mentions)
    rw [update_of_ne hyx, update_of_ne hyn, Env.bind_of_ne _ hyn, Env.bind_of_ne _ hyx]

section substitute

variable {t : Term} {name : String} {value : Term} {avoid : NameSet} {progress : Progress}

/-- Substitution takes its fresh names in the order in which it renames binders. -/
theorem substitute_supply (ht : t.NamedIn progress.supply.used) :
    (t.substitute name value avoid progress).2.supply =
      progress.supply.after (t.renamed name avoid) := by
  fun_induction substitute t name value avoid progress with
  | case1 progress => rfl
  | case2 progress x => rfl
  | case3 progress ty body => simp [renamed, Supply.after]
  | case4 progress x ty body hx hcapture fresh progress₁ hfresh body₁ progress₂ hbody ih =>
    have hext := Progress.renameBinder_extends hfresh
    have hmem := Progress.renameBinder_mem hfresh
    have hnew := Progress.renameBinder_not_mem hfresh
    have hfb : ¬ body.Mentions fresh := fun h => hnew (ht.of_abs.2 fresh h)
    have ih := ih (ht.of_abs.2.rename hext.used hmem)
    rw [hbody, renamed_rename hfb] at ih
    simp only [renamed, if_neg hx, if_pos hcapture, Supply.after,
      Progress.renameBinder_supply hfresh]
    exact ih
  | case5 progress x ty body hx hcapture body₁ progress₁ hbody ih =>
    have ih := ih ht.of_abs.2
    rw [hbody] at ih
    simp only [renamed, if_neg hx, if_neg hcapture]
    exact ih
  | case6 progress fn arg fn₁ progress₁ hfn arg₁ progress₂ harg ihf iha =>
    have hgrow := substitute_extends fn name value avoid progress
    rw [hfn] at ihf hgrow
    have ihf := ihf ht.of_app.1
    have iha := iha (ht.of_app.2.mono hgrow.used)
    rw [harg] at iha
    simp only [renamed]
    rw [Supply.after_append, ← ihf]
    exact iha

/-- A name that is not in use is handed out at most once, and then substitution goes wrong
    exactly if the variable of the renamed binder occurs. -/
theorem substitute_namelessIn_iff (ht : t.NamedIn progress.supply.used)
    (hvalue : value.NamedIn progress.supply.used) (hname : name ∉ progress.supply.used)
    (havoid : ∀ x, x ∈ avoid ↔ value.HasFree x) (env : Env) :
    (t.substitute name value avoid progress).1.namelessIn env = t.namelessIn env ↔
      (name, true) ∉ progress.supply.freshNames (t.renamed name avoid) := by
  fun_induction substitute t name value avoid progress generalizing env with
  | case1 progress => simp [renamed, Supply.freshNames]
  | case2 progress x =>
    have hx : x ≠ name := fun h => hname (h ▸ ht x rfl)
    simp [hx, renamed, Supply.freshNames]
  | case3 progress ty body => exact absurd ht.of_abs.1 hname
  | case4 progress x ty body hx hcapture fresh progress₁ hfresh body₁ progress₂ hbody ih =>
    have hext := Progress.renameBinder_extends hfresh
    have hmem := Progress.renameBinder_mem hfresh
    have hnew := Progress.renameBinder_not_mem hfresh
    have hfb : ¬ body.Mentions fresh := fun h => hnew (ht.of_abs.2 fresh h)
    have hnamed : (body.rename x fresh).NamedIn progress₁.supply.used :=
      ht.of_abs.2.rename hext.used hmem
    have hnamedValue := hvalue.mono hext.used
    simp only [renamed, if_neg hx, if_pos hcapture, Supply.freshNames,
      Progress.renameBinder_supply hfresh, namelessIn, Nameless.abs.injEq, true_and,
      List.mem_cons, Prod.mk.injEq, not_or]
    by_cases hclash : fresh = name
    · -- the clash: from here on the name is in use, so it is not handed out again
      subst hclash
      have hfv : ¬ value.HasFree fresh := fun h => hnew (hvalue fresh h.mentions)
      have hform := substitute_namelessIn hnamed hnamedValue hmem havoid (env.bind fresh)
      rw [hbody] at hform
      rw [hform, namelessIn_rename_name_iff hfb hfv, ← mem_free, Std.TreeSet.mem_iff_contains]
      have hrest := Supply.not_mem_freshNames hmem true (body.renamed fresh avoid)
      simp [hrest]
    · have hname₁ : name ∉ progress₁.supply.used := by
        have hused := Supply.mem_fresh_used progress.supply x name
        rw [Progress.renameBinder_supply hfresh] at hused
        exact fun h => (hused.1 h).elim (Ne.symm hclash) hname
      have ih := ih hnamed hnamedValue hname₁ (env.bind fresh)
      rw [hbody, renamed_rename hfb, namelessIn_rename_bind hfb] at ih
      rw [ih]
      simp [Ne.symm hclash]
  | case5 progress x ty body hx hcapture body₁ progress₁ hbody ih =>
    have ih := ih ht.of_abs.2 hvalue hname (env.bind x)
    rw [hbody] at ih
    simp only [renamed, if_neg hx, if_neg hcapture, namelessIn, Nameless.abs.injEq, true_and]
    exact ih
  | case6 progress fn arg fn₁ progress₁ hfn arg₁ progress₂ harg ihf iha =>
    have hgrow := substitute_extends fn name value avoid progress
    have hsupply : (fn.substitute name value avoid progress).2.supply =
        progress.supply.after (fn.renamed name avoid) := substitute_supply ht.of_app.1
    rw [hfn] at ihf hgrow hsupply
    have hnamedArg := ht.of_app.2.mono hgrow.used
    have hnamedValue := hvalue.mono hgrow.used
    have harg' : arg₁.namelessIn env = arg.namelessIn env ↔
        (name, true) ∉ progress₁.supply.freshNames (arg.renamed name avoid) := by
      by_cases hname₁ : name ∈ progress₁.supply.used
      · -- the function has taken the name; it does not occur in the argument
        have hfa : ¬ arg.HasFree name := fun h => hname (ht.of_app.2 name h.mentions)
        have hform := substitute_namelessIn hnamedArg hnamedValue hname₁ havoid env
        rw [harg, namelessIn_update_of_not_free env _ hfa] at hform
        exact iff_of_true hform (Supply.not_mem_freshNames hname₁ true _)
      · have iha := iha hnamedArg hnamedValue hname₁ env
        rwa [harg] at iha
    simp only [renamed, namelessIn, Nameless.app.injEq]
    rw [ihf ht.of_app.1 hvalue hname env, harg', Supply.freshNames_append, ← hsupply,
      List.mem_append, not_or]

end substitute

end Term

/-! ### Substitutions of a reducer -/

namespace Reducer

variable (r : Reducer) (t : Term) (name : String) (value : Term)

/-- The supply from which a substitution takes its fresh names. -/
def supplyFor : Supply :=
  (r.progress.supply.reserve t).reserve value

/-- The name to be replaced is handed out as the fresh name of a binder whose variable
    occurs. -/
def NameClash : Prop :=
  (name, true) ∈ (r.supplyFor t value).freshNames (t.renamed name value.free)

instance : Decidable (r.NameClash t name value) :=
  inferInstanceAs (Decidable (_ ∈ _))

theorem mem_supplyFor_used (x : String) :
    x ∈ (r.supplyFor t value).used ↔
      (x ∈ r.progress.supply.used ∨ t.Mentions x) ∨ value.Mentions x := by
  unfold supplyFor
  rw [Supply.mem_reserve_used, Supply.mem_reserve_used]

theorem substitute_nameless_eq_replace_iff :
    (r.substitute t name value).1.nameless = t.nameless.replace name value.nameless ↔
      ¬ r.NameClash t name value := by
  let start : Progress := { r.progress with supply := r.supplyFor t value }
  have ht : t.NamedIn start.supply.used := fun x hx =>
    (r.mem_supplyFor_used t value x).2 (Or.inl (Or.inr hx))
  have hvalue : value.NamedIn start.supply.used := fun x hx =>
    (r.mem_supplyFor_used t value x).2 (Or.inr hx)
  by_cases hname : name ∈ start.supply.used
  · have hform := Term.substitute_namelessIn ht hvalue hname (fun _ => Term.mem_free) .free
    rw [Term.replace_nameless]
    exact iff_of_true hform (Supply.not_mem_freshNames hname true _)
  · have hfree : ¬ t.HasFree name := fun h => hname (ht name h.mentions)
    rw [Term.replace_nameless_of_not_free _ hfree]
    exact Term.substitute_namelessIn_iff ht hvalue hname (fun _ => Term.mem_free) .free

/-- Substitution in any state of a reducer is the substitution of the nameless form, unless
    the name to be replaced is handed out as the fresh name of a binder whose variable
    occurs; then it is not.  Where the name is not free, the same decides whether the term
    stays as it is.  There is no clash over a name that either term or an earlier one
    mentions. -/
theorem substitute_nameless_eq_iff_not_nameClash :
    ((r.substitute t name value).1.nameless = t.nameless.replace name value.nameless ↔
      ¬ r.NameClash t name value) ∧
    (¬ t.HasFree name →
      ((r.substitute t name value).1.alphaEq t = true ↔ ¬ r.NameClash t name value)) ∧
    (name ∈ r.progress.supply.used ∨ t.Mentions name ∨ value.Mentions name →
      ¬ r.NameClash t name value) := by
  refine ⟨substitute_nameless_eq_replace_iff r t name value, fun hfree => ?_, fun hused => ?_⟩
  · rw [Term.alphaEq_iff, ← Term.replace_nameless_of_not_free value.nameless hfree]
    exact substitute_nameless_eq_replace_iff r t name value
  · apply Supply.not_mem_freshNames
    rw [mem_supplyFor_used, or_assoc]
    exact hused

/-- Replacing `x2` by `x` in `λx.x`: the binder is renamed, to another name. -/
theorem substitute_nameless_no_clash :
    ¬ (Term.abs "x" .missing (.var "x")).HasFree "x2" ∧
    ¬ ({} : Reducer).NameClash (.abs "x" .missing (.var "x")) "x2" (.var "x") ∧
    (({} : Reducer).substitute (.abs "x" .missing (.var "x")) "x2" (.var "x")).1.alphaEq
      (.abs "x" .missing (.var "x")) = true := by
  have hfree : ¬ (Term.abs "x" .missing (.var "x")).HasFree "x2" := by simp [Term.HasFree]
  have hclash : ¬ ({} : Reducer).NameClash (.abs "x" .missing (.var "x")) "x2" (.var "x") := by
    decide
  have hiff := (substitute_nameless_eq_iff_not_nameClash {} (.abs "x" .missing (.var "x")) "x2"
    (.var "x")).2.1 hfree
  exact ⟨hfree, hclash, hiff.2 hclash⟩

/-- Replacing `x1` by `x` in `λx.x`: the binder is renamed to `x1`, and its variable is then
    replaced.  The result `λx1.x` is not equal to `λx.x` up to the names of bound variables,
    though `x1` does not occur there. -/
theorem substitute_nameless_clash :
    ¬ (Term.abs "x" .missing (.var "x")).HasFree "x1" ∧
    (({} : Reducer).substitute (.abs "x" .missing (.var "x")) "x1" (.var "x")).1.nameless ≠
      (Term.abs "x" .missing (.var "x")).nameless.replace "x1" (Term.var "x").nameless ∧
    (({} : Reducer).substitute (.abs "x" .missing (.var "x")) "x1" (.var "x")).1.alphaEq
      (.abs "x" .missing (.var "x")) = false := by
  have hresult : (({} : Reducer).substitute (.abs "x" .missing (.var "x")) "x1" (.var "x")).1 =
      .abs "x1" .missing (.var "x") := by cbv
  rw [hresult]
  refine ⟨by simp [Term.HasFree], by decide, by decide⟩

end Reducer

end Redex
