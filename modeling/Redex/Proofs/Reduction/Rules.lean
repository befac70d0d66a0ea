import Redex.Proofs.Reduction.Ceiling

/-! # The rules of a run

    What a run does, said without the state that it carries along: each rule gives the
    conversions of a run as a list of events, in the order in which they are made, next to
    the number of visits and the supply of names before and behind it.

    * `Replaces` are the rules of substitution, whose events are the renamings of binders.
    * `Runs` are the rules of reduction under a ceiling.  A run that fails has its events too.

    The rules leave no choice (`Runs.unique`), and the reduction keeps to them: what it logs are
    the events of the rules (`normalize_runs`). -/

namespace Redex

open Reduction

namespace Reduction

/-! ### Rules -/

/-- A name is replaced in a term, `step` visits into a run. -/
inductive Replaces (step : Nat) (name : String) (value : Term) :
    Term → Supply → List Event → Term → Supply → Prop where
  | missing (supply : Supply) : Replaces step name value .missing supply [] .missing supply
  | here (supply : Supply) : Replaces step name value (.var name) supply [] value supply
  | var {x : String} (supply : Supply) (hx : x ≠ name) :
      Replaces step name value (.var x) supply [] (.var x) supply
  /-- A binder of the name hides it. -/
  | hidden (ty : Ty) (body : Term) (supply : Supply) :
      Replaces step name value (.abs name ty body) supply [] (.abs name ty body) supply
  | abs {x : String} {ty : Ty} {body body' : Term} {supply supply' : Supply}
      {events : List Event} (hx : x ≠ name) (hfree : ¬ value.HasFree x)
      (hbody : Replaces step name value body supply events body' supply') :
      Replaces step name value (.abs x ty body) supply events (.abs x ty body') supply'
  /-- A binder that would capture a variable of the value takes the next fresh name. -/
  | rename {x fresh : String} {ty : Ty} {body body' : Term} {supply supply₁ supply₂ : Supply}
      {events : List Event} (hx : x ≠ name) (hfree : value.HasFree x)
      (hfresh : supply.fresh x = (fresh, supply₁))
      (hbody : Replaces step name value (body.rename x fresh) supply₁ events body' supply₂) :
      Replaces step name value (.abs x ty body) supply (⟨step, .alpha x fresh⟩ :: events)
        (.abs fresh ty body') supply₂
  | app {fn fn' arg arg' : Term} {supply supply₁ supply₂ : Supply} {events events' : List Event}
      (hfn : Replaces step name value fn supply events fn' supply₁)
      (harg : Replaces step name value arg supply₁ events' arg' supply₂) :
      Replaces step name value (.app fn arg) supply (events ++ events') (.app fn' arg') supply₂

/-- A term is reduced under a ceiling: from a number of visits and a supply of names, with the
    events of the run, to its result and the visits and the supply behind it. -/
inductive Runs (ceiling : Nat) :
    Term → Nat → Supply → List Event → Except ReduceError Term → Nat → Supply → Prop where
  /-- The visit over the ceiling is counted, and the run fails with it. -/
  | stops (t : Term) {steps : Nat} (supply : Supply) (h : ceiling ≤ steps) :
      Runs ceiling t steps supply [] (.error (.outOfBounds ceiling)) (steps + 1) supply
  | missing {steps : Nat} (supply : Supply) (h : steps < ceiling) :
      Runs ceiling .missing steps supply [] (.ok .missing) (steps + 1) supply
  | var (x : String) {steps : Nat} (supply : Supply) (h : steps < ceiling) :
      Runs ceiling (.var x) steps supply [] (.ok (.var x)) (steps + 1) supply
  | abs {x : String} {ty : Ty} {body : Term} {steps steps' : Nat} {supply supply' : Supply}
      {events : List Event} {result : Except ReduceError Term} (h : steps < ceiling)
      (hbody : Runs ceiling body (steps + 1) supply events result steps' supply') :
      Runs ceiling (.abs x ty body) steps supply events (result.map (.abs x ty)) steps' supply'
  /-- The function of an application fails. -/
  | fails {fn arg : Term} {steps steps' : Nat} {supply supply' : Supply} {events : List Event}
      {e : ReduceError} (h : steps < ceiling)
      (hfn : Runs ceiling fn (steps + 1) supply events (.error e) steps' supply') :
      Runs ceiling (.app fn arg) steps supply events (.error e) steps' supply'
  /-- The function becomes an abstraction: the redex is contracted, and its contractum
      reduced. -/
  | redex {x : String} {ty : Ty} {fn arg body contractum : Term} {steps steps₁ steps₂ : Nat}
      {supply supply₁ supply₂ supply₃ : Supply} {events events₁ events₂ : List Event}
      {result : Except ReduceError Term} (h : steps < ceiling)
      (hfn : Runs ceiling fn (steps + 1) supply events (.ok (.abs x ty body)) steps₁ supply₁)
      (hcontract : Replaces steps₁ x arg body supply₁ events₁ contractum supply₂)
      (hrest : Runs ceiling contractum steps₁ supply₂ events₂ result steps₂ supply₃) :
      Runs ceiling (.app fn arg) steps supply
        (events ++ ⟨steps₁, .beta x⟩ :: (events₁ ++ events₂)) result steps₂ supply₃
  /-- The function becomes something else: the argument is reduced. -/
  | app {fn fn' arg : Term} {steps steps₁ steps₂ : Nat} {supply supply₁ supply₂ : Supply}
      {events events' : List Event} {result : Except ReduceError Term} (h : steps < ceiling)
      (hfn : Runs ceiling fn (steps + 1) supply events (.ok fn') steps₁ supply₁)
      (isAbs : fn'.isAbs = false)
      (harg : Runs ceiling arg steps₁ supply₁ events' result steps₂ supply₂) :
      Runs ceiling (.app fn arg) steps supply (events ++ events') (result.map (.app fn')) steps₂
        supply₂

/-! ### The rules leave no choice -/

theorem Replaces.unique {step : Nat} {name : String} {value t t₁ t₂ : Term}
    {supply supply₁ supply₂ : Supply} {events₁ events₂ : List Event}
    (h₁ : Replaces step name value t supply events₁ t₁ supply₁)
    (h₂ : Replaces step name value t supply events₂ t₂ supply₂) :
    events₁ = events₂ ∧ t₁ = t₂ ∧ supply₁ = supply₂ := by
  induction h₁ generalizing events₂ t₂ supply₂ with
  | missing =>
    cases h₂
    exact ⟨rfl, rfl, rfl⟩
  | here =>
    cases h₂ with
    | here => exact ⟨rfl, rfl, rfl⟩
    | var _ hx => contradiction
  | var _ hx =>
    cases h₂ with
    | here => contradiction
    | var => exact ⟨rfl, rfl, rfl⟩
  | hidden =>
    cases h₂ with
    | hidden => exact ⟨rfl, rfl, rfl⟩
    | abs hx => contradiction
    | rename hx => contradiction
  | abs hx hfree _ ih =>
    cases h₂ with
    | hidden => contradiction
    | abs _ _ hbody =>
      obtain ⟨rfl, rfl, rfl⟩ := ih hbody
      exact ⟨rfl, rfl, rfl⟩
    | rename _ hfree' => contradiction
  | rename hx hfree hfresh _ ih =>
    cases h₂ with
    | hidden => contradiction
    | abs _ hfree' => contradiction
    | rename _ _ hfresh' hbody =>
      cases hfresh.symm.trans hfresh'
      obtain ⟨rfl, rfl, rfl⟩ := ih hbody
      exact ⟨rfl, rfl, rfl⟩
  | app _ _ ihf iha =>
    cases h₂ with
    | app hfn harg =>
      obtain ⟨rfl, rfl, rfl⟩ := ihf hfn
      obtain ⟨rfl, rfl, rfl⟩ := iha harg
      exact ⟨rfl, rfl, rfl⟩

theorem Runs.unique {ceiling steps steps₁ steps₂ : Nat} {t : Term}
    {supply supply₁ supply₂ : Supply} {events₁ events₂ : List Event}
    {result₁ result₂ : Except ReduceError Term}
    (h₁ : Runs ceiling t steps supply events₁ result₁ steps₁ supply₁)
    (h₂ : Runs ceiling t steps supply events₂ result₂ steps₂ supply₂) :
    events₁ = events₂ ∧ result₁ = result₂ ∧ steps₁ = steps₂ ∧ supply₁ = supply₂ := by
  induction h₁ generalizing events₂ result₂ steps₂ supply₂ with
  | stops =>
    cases h₂ with
    | stops => exact ⟨rfl, rfl, rfl, rfl⟩
    | _ => omega
  | missing =>
    cases h₂ with
    | stops => omega
    | missing => exact ⟨rfl, rfl, rfl, rfl⟩
  | var =>
    cases h₂ with
    | stops => omega
    | var => exact ⟨rfl, rfl, rfl, rfl⟩
  | abs hlt _ ih =>
    cases h₂ with
    | stops => omega
    | abs _ hbody =>
      obtain ⟨rfl, rfl, rfl, rfl⟩ := ih hbody
      exact ⟨rfl, rfl, rfl, rfl⟩
  | fails hlt _ ih =>
    cases h₂ with
    | stops => omega
    | fails _ hfn =>
      obtain ⟨rfl, hresult, rfl, rfl⟩ := ih hfn
      exact ⟨rfl, hresult, rfl, rfl⟩
    | redex _ hfn => cases (ih hfn).2.1
    | app _ hfn => cases (ih hfn).2.1
  | redex hlt _ hcontract _ ihf ih =>
    cases h₂ with
    | stops => omega
    | fails _ hfn => cases (ihf hfn).2.1
    | redex _ hfn hcontract' hrest =>
      -- one function, so one redex and one contractum
      obtain ⟨rfl, hresult, rfl, rfl⟩ := ihf hfn
      cases hresult
      obtain ⟨rfl, rfl, rfl⟩ := hcontract.unique hcontract'
      obtain ⟨rfl, rfl, rfl, rfl⟩ := ih hrest
      exact ⟨rfl, rfl, rfl, rfl⟩
    | app _ hfn isAbs =>
      -- the function cannot also become something that is no abstraction
      cases (ihf hfn).2.1
      cases isAbs
  | app hlt _ isAbs _ ihf iha =>
    cases h₂ with
    | stops => omega
    | fails _ hfn => cases (ihf hfn).2.1
    | redex _ hfn =>
      cases (ihf hfn).2.1
      cases isAbs
    | app _ hfn _ harg =>
      obtain ⟨rfl, hresult, rfl, rfl⟩ := ihf hfn
      cases hresult
      obtain ⟨rfl, rfl, rfl, rfl⟩ := iha harg
      exact ⟨rfl, rfl, rfl, rfl⟩

/-! ### The order of events -/

/-- The events are made between two numbers of visits, each at a number that is no less than
    that of the event before it. -/
structure InOrder (low high : Nat) (events : List Event) : Prop where
  le : low ≤ high
  low_le : ∀ event ∈ events, low ≤ event.step
  le_high : ∀ event ∈ events, event.step ≤ high
  sorted : events.Pairwise (·.step ≤ ·.step)

namespace InOrder

variable {low middle high : Nat} {events events' : List Event}

theorem nil (h : low ≤ high) : InOrder low high [] :=
  ⟨h, by simp, by simp, .nil⟩

theorem single (step : Nat) (rule : Rule) : InOrder step step [⟨step, rule⟩] :=
  ⟨Nat.le_refl _, by simp, by simp, List.pairwise_singleton _ _⟩

theorem append (h : InOrder low middle events) (h' : InOrder middle high events') :
    InOrder low high (events ++ events') := by
  refine ⟨Nat.le_trans h.le h'.le, ?_, ?_, ?_⟩
  · intro event hevent
    rcases List.mem_append.1 hevent with hevent | hevent
    · exact h.low_le event hevent
    · exact Nat.le_trans h.le (h'.low_le event hevent)
  · intro event hevent
    rcases List.mem_append.1 hevent with hevent | hevent
    · exact Nat.le_trans (h.le_high event hevent) h'.le
    · exact h'.le_high event hevent
  · rw [List.pairwise_append]
    refine ⟨h.sorted, h'.sorted, ?_⟩
    intro event hevent event' hevent'
    exact Nat.le_trans (h.le_high event hevent) (h'.low_le event' hevent')

theorem mono {low' : Nat} (h : InOrder low high events) (hlow : low' ≤ low) :
    InOrder low' high events :=
  (nil hlow).append h

end InOrder

theorem Replaces.inOrder {step : Nat} {name : String} {value t t' : Term}
    {supply supply' : Supply} {events : List Event}
    (h : Replaces step name value t supply events t' supply') : InOrder step step events := by
  induction h with
  | missing | here | var | hidden => exact .nil (Nat.le_refl step)
  | abs _ _ _ ih => exact ih
  | rename _ _ _ _ ih => exact (InOrder.single step _).append ih
  | app _ _ ihf iha => exact ihf.append iha

theorem Runs.inOrder {ceiling steps steps' : Nat} {t : Term} {supply supply' : Supply}
    {events : List Event} {result : Except ReduceError Term}
    (h : Runs ceiling t steps supply events result steps' supply') :
    InOrder steps steps' events := by
  induction h with
  | stops | missing | var => exact .nil (Nat.le_succ _)
  | abs _ _ ih => exact ih.mono (Nat.le_succ _)
  | fails _ _ ih => exact ih.mono (Nat.le_succ _)
  | @redex x ty fn arg body contractum steps steps₁ steps₂ supply supply₁ supply₂ supply₃
      events events₁ events₂ result _ _ hcontract _ ihf ih =>
    -- the contraction and its renamings stand at the visits behind the function
    have hrest : InOrder steps₁ steps₂ (⟨steps₁, .beta x⟩ :: (events₁ ++ events₂)) :=
      (InOrder.single steps₁ (.beta x)).append (hcontract.inOrder.append ih)
    exact (ihf.mono (Nat.le_succ _)).append hrest
  | app _ _ _ _ ihf iha => exact (ihf.mono (Nat.le_succ _)).append iha

end Reduction

/-! ### Reduction keeps to the rules -/

theorem Term.substitute_replaces (t : Term) {name : String} {value : Term} {avoid : NameSet}
    (progress : Progress) (havoid : ∀ x, x ∈ avoid ↔ value.HasFree x) :
    ∃ events,
      Replaces progress.steps name value t progress.supply events
        (t.substitute name value avoid progress).1
        (t.substitute name value avoid progress).2.supply ∧
      (t.substitute name value avoid progress).2.log = events.reverse ++ progress.log := by
  fun_induction Term.substitute t name value avoid progress with
  | case1 progress => exact ⟨[], .missing _, rfl⟩
  | case2 progress x =>
    by_cases hx : x = name
    · subst hx
      rw [if_pos rfl]
      exact ⟨[], .here _, rfl⟩
    · rw [if_neg hx]
      exact ⟨[], .var _ hx, rfl⟩
  | case3 progress ty body => exact ⟨[], .hidden ty body _, rfl⟩
  | case4 progress x ty body hx hcapture fresh progress₁ hfresh body₁ progress₂ hbody ih =>
    obtain ⟨events, hevents, hlog⟩ := ih
    rw [hbody] at hevents hlog
    have hfree : value.HasFree x := (havoid x).1 hcapture
    have hsupply := Progress.renameBinder_supply hfresh
    cases hfresh
    refine ⟨_ :: events, .rename hx hfree hsupply hevents, ?_⟩
    rw [hlog, List.reverse_cons, List.append_assoc]
    rfl
  | case5 progress x ty body hx hcapture body₁ progress₁ hbody ih =>
    obtain ⟨events, hevents, hlog⟩ := ih
    rw [hbody] at hevents hlog
    have hfree : ¬ value.HasFree x := fun h => hcapture ((havoid x).2 h)
    exact ⟨events, .abs hx hfree hevents, hlog⟩
  | case6 progress fn arg fn₁ progress₁ hfn arg₁ progress₂ harg ihf iha =>
    have hsteps := (substitute_extends fn name value avoid progress).steps
    obtain ⟨events, hevents, hlog⟩ := ihf
    obtain ⟨events', hevents', hlog'⟩ := iha
    rw [hfn] at hevents hlog hsteps
    rw [harg] at hevents' hlog'
    rw [hsteps] at hevents'
    refine ⟨events ++ events', .app hevents hevents', ?_⟩
    rw [hlog', hlog, List.reverse_append, List.append_assoc]

namespace Reduction

open Progress

/-- A run ends as the rules have it, and has logged the events of the rules. -/
def KeepsTo (ceiling : Nat) (t : Term) (progress : Progress)
    (run : Except ReduceError Term × Progress) : Prop :=
  ∃ events,
    Runs ceiling t progress.steps progress.supply events run.1 run.2.steps run.2.supply ∧
    run.2.log = events.reverse ++ progress.log

theorem visit_keepsTo {ceiling depth : Nat} {t : Term} {progress : Progress}
    (hdepth : ceiling ≤ progress.steps + depth) :
    KeepsTo ceiling t progress (visit ceiling depth t progress) := by
  fun_induction visit ceiling depth t progress
  case case1 t progress =>
    -- the depth is used up only where the ceiling is
    exact ⟨[], .stops t _ hdepth, rfl⟩
  case case2 depth t progress _ hlt => exact ⟨[], .stops t _ (Nat.le_of_lt_succ hlt), rfl⟩
  case case3 depth progress _ hle => exact ⟨[], .missing _ (Nat.not_lt.1 hle), rfl⟩
  case case4 depth progress _ hle x => exact ⟨[], .var x _ (Nat.not_lt.1 hle), rfl⟩
  case
    case5 depth progress _ hle x ty body e progress₁ hbelow ih
    | case6 depth progress _ hle x ty body body' progress₁ hbelow ih =>
    rw [hbelow] at ih
    obtain ⟨events, hruns, hlog⟩ := ih (by rw [tick_steps]; omega)
    exact ⟨events, Runs.abs (Nat.not_lt.1 hle) hruns, hlog⟩
  case case7 depth progress _ hle fn arg e progress₁ hbelow ih =>
    rw [hbelow] at ih
    obtain ⟨events, hruns, hlog⟩ := ih (by rw [tick_steps]; omega)
    exact ⟨events, .fails (Nat.not_lt.1 hle) hruns, hlog⟩
  case case8 depth progress _ hle fn arg fn' progress₁ hfn isAbs e progress₂ hcontract ihf =>
    obtain ⟨_, _, _, _, _, hok, _⟩ := contract_of_isAbs isAbs hcontract
    cases hok
  case case9 depth progress _ hle fn arg fn' progress₁ hfn isAbs u progress₂ hcontract ihf ih =>
    rw [hfn] at ihf
    obtain ⟨events, hruns, hlog⟩ := ihf (by rw [tick_steps]; omega)
    have hroom := room_of_visit hfn hdepth
    have hsame := steps_of_contract isAbs hcontract
    obtain ⟨events₂, hrest, hlog₂⟩ := ih (by omega)
    -- the contraction is logged first, and then the renamings that it needs
    obtain ⟨x, ty, body, contractum, rfl, hok, hsubst⟩ := contract_of_isAbs isAbs hcontract
    cases hok
    obtain ⟨events₁, hreplaces, hlog₁⟩ :=
      body.substitute_replaces (progress₁.record (.beta x)) (fun _ => Term.mem_free (t := arg))
    rw [hsubst] at hreplaces hlog₁
    rw [hsame] at hrest
    refine ⟨_, .redex (Nat.not_lt.1 hle) hruns hreplaces hrest, ?_⟩
    have hrecord : (progress₁.record (.beta x)).log =
        ⟨progress₁.steps, .beta x⟩ :: (events.reverse ++ progress.log) :=
      congrArg (_ :: ·) hlog
    rw [hlog₂, hlog₁, hrecord]
    simp
  case
    case10 depth progress _ hle fn arg fn' progress₁ hfn isAbs e progress₂ harg ihf iha
    | case11 depth progress _ hle fn arg fn' progress₁ hfn isAbs arg' progress₂ harg ihf iha =>
    rw [hfn] at ihf
    rw [harg] at iha
    obtain ⟨events, hruns, hlog⟩ := ihf (by rw [tick_steps]; omega)
    obtain ⟨events', hruns', hlog'⟩ := iha (room_of_visit hfn hdepth)
    refine ⟨events ++ events',
      Runs.app (Nat.not_lt.1 hle) hruns (by simpa using isAbs) hruns', ?_⟩
    rw [hlog', hlog, List.reverse_append, List.append_assoc]
    rfl

/-- A reduction logs its events and nothing else. -/
theorem normalize_runs (ceiling : Nat) (t : Term) :
    Runs ceiling t 0 (.ofTerm t) (normalize ceiling t).2.log.reverse (normalize ceiling t).1
      (normalize ceiling t).2.steps (normalize ceiling t).2.supply := by
  have hroom : ceiling ≤ (Progress.ofTerm t).steps + ceiling := Nat.le_add_left _ _
  obtain ⟨events, hruns, hlog⟩ := visit_keepsTo hroom
  have hevents : (normalize ceiling t).2.log.reverse = events := by
    show (visit ceiling ceiling t (.ofTerm t)).2.log.reverse = events
    rw [hlog]
    simp [Progress.ofTerm]
  rw [hevents]
  exact hruns

end Reduction

end Redex
