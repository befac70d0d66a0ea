import Redex.Proofs.Reduction.Course

/-! # Reduction under a ceiling

    A visit that starts within the ceiling either returns within it, or fails right behind it:
    the visit that goes over the ceiling is the last that is counted (`visit_bounded`).

    Under a lower ceiling a reduction takes the same course, up to the point where it is cut
    off (`visit_cut`). -/

namespace Redex.Reduction

open Progress

/-! ### Within the ceiling or right behind it -/

/-- How a visit ends under a ceiling: it returns within it, or it fails with the first visit
    over it. -/
def Bounded (ceiling : Nat) : Except ReduceError Term × Progress → Prop
  | (.ok _, progress) => progress.steps ≤ ceiling
  | (.error e, progress) => e = .outOfBounds ceiling ∧ progress.steps = ceiling + 1

/-- A contraction counts no visit. -/
theorem steps_of_contract {ceiling : Nat} {fn arg : Term} {progress progress' : Progress}
    {result : Except ReduceError Term} (hfn : fn.isAbs = true)
    (h : contract ceiling fn arg progress = (result, progress')) :
    progress'.steps = progress.steps := by
  obtain ⟨x, ty, body, contractum, rfl, rfl, hsubst⟩ := contract_of_isAbs hfn h
  have hext := body.substitute_extends x arg arg.free (progress.record (.beta x))
  rw [hsubst] at hext
  exact hext.steps

/-- The visits below a visit start with as much room as there is up to the ceiling. -/
theorem room_of_visit {ceiling depth : Nat} {t : Term} {progress progress' : Progress}
    {result : Except ReduceError Term}
    (h : visit ceiling depth t progress.tick = (result, progress'))
    (hdepth : ceiling ≤ progress.steps + (depth + 1)) : ceiling ≤ progress'.steps + depth := by
  have hmoves := (visit_moves ceiling depth t progress.tick).steps_le
  rw [h] at hmoves
  have hsteps : progress.steps + 2 ≤ progress'.steps := hmoves
  omega

theorem visit_bounded {ceiling depth : Nat} {t : Term} {progress : Progress}
    (hsteps : progress.steps ≤ ceiling) (hdepth : ceiling ≤ progress.steps + depth) :
    Bounded ceiling (visit ceiling depth t progress) := by
  fun_induction visit ceiling depth t progress
  case case1 t progress =>
    -- the depth is used up only where the ceiling is
    have hover : progress.steps + 1 = ceiling + 1 := by omega
    exact ⟨rfl, hover⟩
  case case2 depth t progress _ hlt =>
    have hlt : ceiling < progress.steps + 1 := hlt
    have hover : progress.steps + 1 = ceiling + 1 := by omega
    exact ⟨rfl, hover⟩
  case case3 depth progress _ hle => exact Nat.not_lt.1 hle
  case case4 depth progress _ hle x => exact Nat.not_lt.1 hle
  case
    case5 depth progress _ hle x ty body e progress₁ hbelow ih
    | case6 depth progress _ hle x ty body body' progress₁ hbelow ih
    | case7 depth progress _ hle fn arg e progress₁ hbelow ih =>
    rw [hbelow] at ih
    exact ih (Nat.not_lt.1 hle) (by rw [tick_steps]; omega)
  case case8 depth progress _ hle fn arg fn' progress₁ hfn isAbs e progress₂ hcontract ihf =>
    obtain ⟨_, _, _, _, _, hok, _⟩ := contract_of_isAbs isAbs hcontract
    cases hok
  case case9 depth progress _ hle fn arg fn' progress₁ hfn isAbs u progress₂ hcontract ihf ih =>
    rw [hfn] at ihf
    have hwithin : progress₁.steps ≤ ceiling :=
      ihf (Nat.not_lt.1 hle) (by rw [tick_steps]; omega)
    have hroom := room_of_visit hfn hdepth
    have hsame := steps_of_contract isAbs hcontract
    exact ih (by omega) (by omega)
  case
    case10 depth progress _ hle fn arg fn' progress₁ hfn isAbs e progress₂ harg ihf iha
    | case11 depth progress _ hle fn arg fn' progress₁ hfn isAbs arg' progress₂ harg ihf iha =>
    rw [hfn] at ihf
    rw [harg] at iha
    have hwithin : progress₁.steps ≤ ceiling :=
      ihf (Nat.not_lt.1 hle) (by rw [tick_steps]; omega)
    exact iha hwithin (room_of_visit hfn hdepth)

/-! ### Two ceilings -/

/-- How a visit relates to the same visit under a higher ceiling: both return the same with the
    same progress, or the first is stopped, and the second has counted and logged all that it
    has. -/
inductive Cut (ceiling : Nat) :
    Except ReduceError Term × Progress → Except ReduceError Term × Progress → Prop where
  | returned (n : Term) (progress : Progress) : Cut ceiling (.ok n, progress) (.ok n, progress)
  | stopped {progress : Progress} {run : Except ReduceError Term × Progress}
      (hsteps : progress.steps ≤ run.2.steps) (hlog : progress.log <:+ run.2.log) :
      Cut ceiling (.error (.outOfBounds ceiling), progress) run

theorem Cut.eq_of_ok {ceiling : Nat} {n : Term} {progress : Progress}
    {run : Except ReduceError Term × Progress} (h : Cut ceiling (.ok n, progress) run) :
    run = (.ok n, progress) := by
  cases h
  rfl

/-- A visit over the ceiling is counted and does nothing else. -/
theorem visit_of_over {ceiling depth : Nat} {t : Term} {progress : Progress}
    (hover : ceiling < progress.tick.steps) :
    visit ceiling depth t progress = (.error (.outOfBounds ceiling), progress.tick) := by
  cases depth with
  | zero => rfl
  | succ depth =>
    unfold visit
    rw [if_pos hover]

/-- The visit of an application goes on from the visit of its function. -/
theorem visit_app_moves {ceiling depth : Nat} {fn arg : Term} {progress : Progress}
    (hle : ¬ ceiling < progress.tick.steps) :
    (visit ceiling depth fn progress.tick).2.Moves
      (visit ceiling (depth + 1) (.app fn arg) progress).2 := by
  simp only [visit, if_neg hle]
  rcases visit ceiling depth fn progress.tick with ⟨_ | fn', progress₁⟩
  · exact .refl
  · dsimp only
    split
    · have hcontract := contract_moves ceiling fn' arg progress₁
      generalize contract ceiling fn' arg progress₁ = run at hcontract ⊢
      rcases run with ⟨_ | contractum, progress₂⟩
      · exact hcontract
      · exact hcontract.trans (.head (.visit _) (visit_moves ceiling depth contractum progress₂))
    · have harg := (visit_moves ceiling depth arg progress₁).head (.visit _)
      generalize visit ceiling depth arg progress₁ = run at harg ⊢
      rcases run with ⟨_ | arg', progress₂⟩
      · exact harg
      · exact harg

/-- Under a lower ceiling a visit takes the same course, as far as it comes. -/
theorem visit_cut {ceiling ceiling' depth depth' : Nat} {t : Term} {progress : Progress}
    (hceiling : ceiling ≤ ceiling') (hdepth : ceiling' ≤ progress.steps + depth') :
    Cut ceiling (visit ceiling depth t progress) (visit ceiling' depth' t progress) := by
  induction depth generalizing depth' t progress with
  | zero =>
    have hmoves := visit_moves ceiling' depth' t progress
    exact .stopped hmoves.steps_le hmoves.log_suffix
  | succ depth ih =>
    by_cases hover : ceiling < progress.tick.steps
    · have hmoves := visit_moves ceiling' depth' t progress
      rw [visit_of_over hover]
      exact .stopped hmoves.steps_le hmoves.log_suffix
    · -- where the lower ceiling leaves room, the higher one does
      have hpos : 0 < depth' := by
        rw [tick_steps] at hover
        omega
      obtain ⟨depth', rfl⟩ := Nat.exists_eq_add_one.2 hpos
      have hover' : ¬ ceiling' < progress.tick.steps := by omega
      have hnext : ceiling' ≤ progress.tick.steps + depth' := by
        rw [tick_steps]
        omega
      cases t with
      | missing =>
        simp only [visit, if_neg hover, if_neg hover']
        exact .returned .missing progress.tick
      | var x =>
        simp only [visit, if_neg hover, if_neg hover']
        exact .returned (.var x) progress.tick
      | abs x ty body =>
        have hbody := @ih depth' body progress.tick hnext
        simp only [visit, if_neg hover, if_neg hover']
        generalize visit ceiling depth body progress.tick = run at hbody ⊢
        generalize visit ceiling' depth' body progress.tick = run' at hbody ⊢
        cases hbody with
        | returned body' progress₁ => exact .returned (.abs x ty body') progress₁
        | stopped hsteps hlog =>
          rcases run' with ⟨_ | body', progress₁⟩
          · exact .stopped hsteps hlog
          · exact .stopped hsteps hlog
      | app fn arg =>
        have hfn := @ih depth' fn progress.tick hnext
        rcases hlow : visit ceiling depth fn progress.tick with ⟨e | fn', progress₁⟩
        · have hrest := @visit_app_moves ceiling' depth' fn arg progress hover'
          rw [hlow] at hfn
          cases hfn with
          | stopped hsteps hlog =>
            have hstop : visit ceiling (depth + 1) (.app fn arg) progress =
                (.error (.outOfBounds ceiling), progress₁) := by
              simp only [visit, if_neg hover, hlow]
            rw [hstop]
            exact .stopped (Nat.le_trans hsteps hrest.steps_le) (hlog.trans hrest.log_suffix)
        · rw [hlow] at hfn
          have hhigh := hfn.eq_of_ok
          have hroom := room_of_visit hhigh hdepth
          simp only [visit, if_neg hover, if_neg hover', hlow, hhigh]
          split
          · rename_i isAbs
            obtain ⟨x, ty, body, rfl⟩ := Term.exists_of_isAbs isAbs
            have hsame := steps_of_contract isAbs (Eq.refl (contract ceiling _ arg progress₁))
            exact ih (hsame ▸ hroom)
          · have harg := @ih depth' arg progress₁ hroom
            generalize visit ceiling depth arg progress₁ = run at harg ⊢
            generalize visit ceiling' depth' arg progress₁ = run' at harg ⊢
            cases harg with
            | returned arg' progress₂ => exact .returned (.app fn' arg') progress₂
            | stopped hsteps hlog =>
              rcases run' with ⟨_ | arg', progress₂⟩
              · exact .stopped hsteps hlog
              · exact .stopped hsteps hlog

end Redex.Reduction
