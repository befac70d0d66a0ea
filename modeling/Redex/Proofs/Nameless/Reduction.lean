import Redex.Proofs.Nameless

/-! # Reduction of nameless terms

    * `Beta` is one contraction of a redex anywhere in a term, `BetaSteps` a sequence of
      contractions by its length.
    * `Evaluates` is the order in which a normal form is looked for: the function of an
      application first, then the contractum of a redex or else the argument.  It counts
      visited subterms and contractions.
    * `visit` does the same as a function, with a ceiling on the number of visits.

    What `visit` returns, `Evaluates` derives; and an evaluation ends in a normal form
    after as many contractions as it counts. -/

namespace Redex.Nameless

/-! ### Contractions -/

/-- One contraction of a redex, anywhere in a term.  Annotations stay. -/
inductive Beta : Nameless → Nameless → Prop where
  | redex (ty : Ty) (body arg : Nameless) :
      Beta (.app (.abs ty body) arg) (body.instantiate arg)
  | abs (ty : Ty) {body body' : Nameless} :
      Beta body body' → Beta (.abs ty body) (.abs ty body')
  | fn {fn fn' : Nameless} (arg : Nameless) :
      Beta fn fn' → Beta (.app fn arg) (.app fn' arg)
  | arg (fn : Nameless) {arg arg' : Nameless} :
      Beta arg arg' → Beta (.app fn arg) (.app fn arg')

/-- A sequence of contractions, by its length. -/
inductive BetaSteps : Nat → Nameless → Nameless → Prop where
  | refl (t : Nameless) : BetaSteps 0 t t
  | step {count : Nat} {t u v : Nameless} :
      Beta t u → BetaSteps count u v → BetaSteps (count + 1) t v

/-- No application in the term has an abstraction for its function. -/
def IsNormal : Nameless → Prop
  | .missing => True
  | .bound _ => True
  | .free _ => True
  | .abs _ body => body.IsNormal
  | .app fn arg => fn.isAbs = false ∧ fn.IsNormal ∧ arg.IsNormal

namespace BetaSteps

variable {m n : Nat} {t u v fn fn' arg arg' body body' : Nameless}

theorem trans (h₁ : BetaSteps m t u) (h₂ : BetaSteps n u v) : BetaSteps (m + n) t v := by
  induction h₁ with
  | refl t => rwa [Nat.zero_add]
  | step hstep _ ih =>
    rw [Nat.add_right_comm]
    exact .step hstep (ih h₂)

/-- Contractions go through below anything that single contractions go through below. -/
theorem map {f : Nameless → Nameless} (hf : ∀ {a b}, Beta a b → Beta (f a) (f b))
    (h : BetaSteps n t u) : BetaSteps n (f t) (f u) := by
  induction h with
  | refl t => exact .refl (f t)
  | step hstep _ ih => exact .step (hf hstep) ih

theorem app (hfn : BetaSteps m fn fn') (harg : BetaSteps n arg arg') :
    BetaSteps (m + n) (.app fn arg) (.app fn' arg') :=
  (hfn.map (Beta.fn arg)).trans (harg.map (Beta.arg fn'))

/-- The function of an application becomes an abstraction, and the redex is contracted. -/
theorem contract {ty : Ty} (hfn : BetaSteps m fn (.abs ty body))
    (h : BetaSteps n (body.instantiate arg) t) : BetaSteps (m + n + 1) (.app fn arg) t :=
  (hfn.map (Beta.fn arg)).trans (.step (.redex ty body arg) h)

end BetaSteps

/-! ### Evaluation -/

/-- The visits and contractions counted so far. -/
structure Tally where
  visits : Nat
  contractions : Nat
deriving DecidableEq, Repr

/-- One more visit. -/
def Tally.tick (tally : Tally) : Tally :=
  { tally with visits := tally.visits + 1 }

/-- One more contraction. -/
def Tally.contract (tally : Tally) : Tally :=
  { tally with contractions := tally.contractions + 1 }

/-- A term evaluates to a normal form in a number of visits and of contractions. -/
inductive Evaluates : Nameless → Nameless → Nat → Nat → Prop where
  | missing : Evaluates .missing .missing 1 0
  | bound (i : Nat) : Evaluates (.bound i) (.bound i) 1 0
  | free (x : String) : Evaluates (.free x) (.free x) 1 0
  | abs {ty : Ty} {body body' : Nameless} {v c : Nat} :
      Evaluates body body' v c → Evaluates (.abs ty body) (.abs ty body') (v + 1) c
  | redex {ty : Ty} {fn body arg n : Nameless} {v c v' c' : Nat} :
      Evaluates fn (.abs ty body) v c → Evaluates (body.instantiate arg) n v' c' →
      Evaluates (.app fn arg) n (v + v' + 1) (c + c' + 1)
  | app {fn fn' arg arg' : Nameless} {v c v' c' : Nat} :
      Evaluates fn fn' v c → fn'.isAbs = false → Evaluates arg arg' v' c' →
      Evaluates (.app fn arg) (.app fn' arg') (v + v' + 1) (c + c')

namespace Evaluates

variable {t n : Nameless} {v c : Nat}

theorem isNormal (h : Evaluates t n v c) : n.IsNormal := by
  induction h with
  | missing => trivial
  | bound i => trivial
  | free x => trivial
  | abs _ ih => exact ih
  | redex _ _ _ ih => exact ih
  | app _ hfn _ ihf iha => exact ⟨hfn, ihf, iha⟩

theorem betaSteps (h : Evaluates t n v c) : BetaSteps c t n := by
  induction h with
  | missing => exact .refl _
  | bound i => exact .refl _
  | free x => exact .refl _
  | abs _ ih => exact ih.map (Beta.abs _)
  | redex _ _ ihf ih => exact ihf.contract ih
  | app _ _ _ ihf iha => exact ihf.app iha

end Evaluates

/-- Visits a term and the subterms and contracta below it, at most `depth` below one another
    and not more than `ceiling` in all. -/
def visit (ceiling : Nat) : Nat → Nameless → Tally → Option Nameless × Tally
  | 0, _, tally => (none, tally.tick)
  | depth + 1, t, tally =>
    if ceiling < tally.tick.visits then (none, tally.tick)
    else
      match t with
      | .missing => (some .missing, tally.tick)
      | .bound i => (some (.bound i), tally.tick)
      | .free x => (some (.free x), tally.tick)
      | .abs ty body =>
        match visit ceiling depth body tally.tick with
        | (none, tally) => (none, tally)
        | (some body, tally) => (some (.abs ty body), tally)
      | .app fn arg =>
        match visit ceiling depth fn tally.tick with
        | (none, tally) => (none, tally)
        | (some (.abs _ body), tally) =>
          visit ceiling depth (body.instantiate arg) tally.contract
        | (some fn, tally) =>
          match visit ceiling depth arg tally with
          | (none, tally) => (none, tally)
          | (some arg, tally) => (some (.app fn arg), tally)

/-- A visit that returns has evaluated its term. -/
theorem visit_evaluates {ceiling depth : Nat} {t n : Nameless} {tally tally' : Tally}
    (h : visit ceiling depth t tally = (some n, tally')) :
    ∃ v c, tally' = ⟨tally.visits + v, tally.contractions + c⟩ ∧ Evaluates t n v c := by
  fun_induction visit ceiling depth t tally generalizing n tally' with
  | case1 | case2 | case6 | case8 | case10 => simp at h
  | case3 depth tally₀ =>
    cases h
    exact ⟨1, 0, rfl, .missing⟩
  | case4 depth tally₀ hle i =>
    cases h
    exact ⟨1, 0, rfl, .bound i⟩
  | case5 depth tally₀ hle x =>
    cases h
    exact ⟨1, 0, rfl, .free x⟩
  | case7 depth tally₀ hle ty body body' tally₁ hbody ih =>
    cases h
    obtain ⟨v, c, rfl, heval⟩ := ih hbody
    refine ⟨v + 1, c, ?_, .abs heval⟩
    simp only [Tally.tick, Tally.mk.injEq, and_true]
    omega
  | case9 depth tally₀ hle fn arg ty body tally₁ hfn ihf ih =>
    obtain ⟨v, c, rfl, heval⟩ := ihf hfn
    obtain ⟨v', c', rfl, heval'⟩ := ih h
    refine ⟨v + v' + 1, c + c' + 1, ?_, .redex heval heval'⟩
    simp only [Tally.tick, Tally.contract, Tally.mk.injEq]
    omega
  | case11 depth tally₀ hle fn arg fn' tally₁ hnotAbs hfn arg' tally₂ harg ihf iha =>
    cases h
    obtain ⟨v, c, rfl, heval⟩ := ihf hfn
    obtain ⟨v', c', rfl, heval'⟩ := iha harg
    have hisAbs : fn'.isAbs = false := by
      cases fn' with
      | abs ty body => exact absurd rfl (hnotAbs ty body)
      | _ => rfl
    refine ⟨v + v' + 1, c + c', ?_, .app heval hisAbs heval'⟩
    simp only [Tally.tick, Tally.mk.injEq]
    omega

/-- An evaluation needs at least one visit. -/
theorem Evaluates.visits_pos {t n : Nameless} {v c : Nat} (h : Evaluates t n v c) : 0 < v := by
  cases h <;> omega

/-- Where there is room for an evaluation, there is room for its first visit. -/
theorem exists_depth_of_room {v ceiling depth : Nat} {tally : Tally} (hpos : 0 < v)
    (hdepth : v ≤ depth) (hceiling : tally.visits + v ≤ ceiling) :
    ∃ depth', depth = depth' + 1 ∧ ¬ ceiling < tally.tick.visits := by
  refine ⟨depth - 1, by omega, ?_⟩
  show ¬ ceiling < tally.visits + 1
  omega

/-- A visit that has room for an evaluation carries it out, and counts what it counts. -/
theorem Evaluates.visit_eq {t n : Nameless} {v c : Nat} (h : Evaluates t n v c)
    {ceiling depth : Nat} {tally : Tally} (hdepth : v ≤ depth)
    (hceiling : tally.visits + v ≤ ceiling) :
    visit ceiling depth t tally = (some n, ⟨tally.visits + v, tally.contractions + c⟩) := by
  induction h generalizing depth tally with
  | missing | bound | free =>
    obtain ⟨depth, rfl, hle⟩ := exists_depth_of_room Nat.one_pos hdepth hceiling
    rw [visit, if_neg hle]
    rfl
  | @abs ty body body' v c h ih =>
    obtain ⟨depth, rfl, hle⟩ := exists_depth_of_room (Nat.succ_pos _) hdepth hceiling
    have hbody := @ih depth tally.tick (by omega) (by simp only [Tally.tick]; omega)
    simp only [visit, if_neg hle, hbody]
    simp only [Tally.tick, Prod.mk.injEq, Tally.mk.injEq, true_and, and_true]
    omega
  | @redex ty fn body arg n v c v' c' hfn h ihf ih =>
    obtain ⟨depth, rfl, hle⟩ := exists_depth_of_room (Nat.succ_pos _) hdepth hceiling
    have hfn' := @ihf depth tally.tick (by omega) (by simp only [Tally.tick]; omega)
    have hbody := @ih depth ⟨tally.tick.visits + v, tally.tick.contractions + c + 1⟩ (by omega)
      (by simp only [Tally.tick]; omega)
    simp only [visit, if_neg hle, hfn', Tally.contract, hbody]
    simp only [Tally.tick, Prod.mk.injEq, Tally.mk.injEq, true_and]
    omega
  | @app fn fn' arg arg' v c v' c' hfn hisAbs harg ihf iha =>
    obtain ⟨depth, rfl, hle⟩ := exists_depth_of_room (Nat.succ_pos _) hdepth hceiling
    have hfn' := @ihf depth tally.tick (by omega) (by simp only [Tally.tick]; omega)
    have harg' := @iha depth ⟨tally.tick.visits + v, tally.tick.contractions + c⟩ (by omega)
      (by simp only [Tally.tick]; omega)
    have hsum : Tally.mk (tally.tick.visits + v + v') (tally.tick.contractions + c + c') =
        ⟨tally.visits + (v + v' + 1), tally.contractions + (c + c')⟩ := by
      simp only [Tally.tick, Tally.mk.injEq]
      omega
    rw [← hsum]
    -- the match on the result of the function needs to see that it is no abstraction
    cases fn' with
    | abs ty body => cases hisAbs
    | _ => simp only [visit, if_neg hle, hfn', harg']

end Redex.Nameless
