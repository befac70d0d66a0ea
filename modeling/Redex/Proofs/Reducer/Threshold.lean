import Redex.Proofs.Reducer.NormalForm
import Redex.Proofs.Reduction.Ceiling

/-! # The ceiling of a reducer

    A reduction that returns needs a certain number of visits.  It returns the same under every
    ceiling from that number on and fails under every lower one; and a failure always stands
    right behind the ceiling (`reduceUnder_threshold`).

    The result has no more nodes than there were visits, since each of them has been visited
    last.  So the ceiling that was enough for the reduction is enough for its result, which is
    reduced to itself (`reduce_result_again`). -/

namespace Redex

open Reduction

/-! ### Visits of normal forms -/

namespace Reduction.Normalizes

variable {t n : Term} {p p' : Progress}

theorem isNormal (h : Normalizes t p n p') : n.IsNormal := by
  induction h with
  | missing => trivial
  | var => trivial
  | abs _ ih => exact ih
  | redex _ _ _ _ ih => exact ih
  | app _ isAbs _ ihf iha => exact ⟨isAbs, ihf, iha⟩

/-- Every node of the result has been visited: a contractum counts again what it copies. -/
theorem size_le (h : Normalizes t p n p') : p.steps + n.size ≤ p'.steps := by
  induction h with
  | missing p => exact Nat.le_refl _
  | var x p => exact Nat.le_refl _
  | @abs x ty body body' p p' hbody ih =>
    rw [Progress.tick_steps] at ih
    show p.steps + (body'.size + 1) ≤ p'.steps
    omega
  | @redex x ty fn arg body contractum n p p₁ p₂ p₃ hfn hcontract hcontractum ihf ih =>
    have hext := body.substitute_extends x arg arg.free (p₁.record (.beta x))
    rw [hcontract] at hext
    have hsame : p₂.steps = p₁.steps := hext.steps
    rw [Progress.tick_steps] at ihf
    omega
  | @app fn fn' arg arg' p p₁ p₂ hfn isAbs harg ihf iha =>
    rw [Progress.tick_steps] at ihf
    show p.steps + (fn'.size + arg'.size + 1) ≤ p₂.steps
    omega

end Reduction.Normalizes

/-- Where there is room for all nodes of a term, there is room for a first visit. -/
theorem Term.exists_depth_of_room {n : Term} {ceiling depth : Nat} {p : Progress}
    (hdepth : n.size ≤ depth) (hceiling : p.steps + n.size ≤ ceiling) :
    ∃ depth', depth = depth' + 1 ∧ ¬ ceiling < p.tick.steps := by
  have hpos := n.size_pos
  refine ⟨depth - 1, by omega, ?_⟩
  rw [Progress.tick_steps]
  omega

/-- A normal form is visited node by node and stays as it is. -/
theorem Term.IsNormal.visit_eq {n : Term} (h : n.IsNormal) {ceiling depth : Nat} {p : Progress}
    (hdepth : n.size ≤ depth) (hceiling : p.steps + n.size ≤ ceiling) :
    visit ceiling depth n p = (.ok n, { p with steps := p.steps + n.size }) := by
  induction n generalizing depth p with
  | missing | var =>
    obtain ⟨depth, rfl, hle⟩ := exists_depth_of_room hdepth hceiling
    simp only [visit, if_neg hle]
    rfl
  | abs x ty body ih =>
    obtain ⟨depth, rfl, hle⟩ := exists_depth_of_room hdepth hceiling
    simp only [size] at hdepth hceiling
    have hbody := @ih h depth p.tick (by omega) (by rw [Progress.tick_steps]; omega)
    have hsum : p.tick.steps + body.size = p.steps + (body.size + 1) := by
      rw [Progress.tick_steps]
      omega
    simp only [visit, if_neg hle, hbody, hsum]
    rfl
  | app fn arg ihf iha =>
    obtain ⟨isAbs, hnormal, hnormal'⟩ := h
    obtain ⟨depth, rfl, hle⟩ := exists_depth_of_room hdepth hceiling
    simp only [size] at hdepth hceiling
    have hfn := @ihf hnormal depth p.tick (by omega) (by rw [Progress.tick_steps]; omega)
    have harg := @iha hnormal' depth { p.tick with steps := p.tick.steps + fn.size } (by omega)
      (by simp only [Progress.tick_steps]; omega)
    have hsum : p.tick.steps + fn.size + arg.size = p.steps + (fn.size + arg.size + 1) := by
      rw [Progress.tick_steps]
      omega
    simp only [visit, if_neg hle, hfn, isAbs, harg, hsum]
    rfl

/-! ### The ceiling as a threshold -/

namespace Reduction

theorem normalize_bounded (ceiling : Nat) (t : Term) : Bounded ceiling (normalize ceiling t) :=
  visit_bounded (Nat.zero_le ceiling) (Nat.le_add_left ceiling 0)

theorem normalize_cut {ceiling ceiling' : Nat} (h : ceiling ≤ ceiling') (t : Term) :
    Cut ceiling (normalize ceiling t) (normalize ceiling' t) :=
  visit_cut h (Nat.le_add_left ceiling' 0)

/-- A ceiling that is enough for a reduction is enough for its result, which stays as it is. -/
theorem normalize_again {ceiling : Nat} {t n : Term} {progress : Progress}
    (h : normalize ceiling t = (.ok n, progress)) :
    n.size ≤ progress.steps ∧
      normalize ceiling n = (.ok n, { Progress.ofTerm n with steps := n.size }) := by
  have hnormalizes := normalizes_of_visit h
  have hsize : 0 + n.size ≤ progress.steps := hnormalizes.size_le
  rw [Nat.zero_add] at hsize
  have hbounded := normalize_bounded ceiling t
  rw [h] at hbounded
  have hroom : n.size ≤ ceiling := Nat.le_trans hsize hbounded
  have hagain := @Term.IsNormal.visit_eq n hnormalizes.isNormal ceiling ceiling (.ofTerm n) hroom
  rw [show (Progress.ofTerm n).steps = 0 from rfl, Nat.zero_add] at hagain
  exact ⟨hsize, hagain hroom⟩

end Reduction

namespace Reducer

/-- The result of a reduction under a ceiling, and its statistics. -/
def reduceUnder (r : Reducer) (ceiling : Nat) (t : Term) : Except ReduceError Term × Stats :=
  let (result, r) := (r.withCeiling ceiling).reduce t
  (result, r.stats)

theorem reduceUnder_eq (r : Reducer) {ceiling : Nat} (h : 0 < ceiling) (t : Term) :
    r.reduceUnder ceiling t = ((normalize ceiling t).1, (normalize ceiling t).2.stats) := by
  have hpos : (0 : Int) < ceiling := Int.natCast_pos.2 h
  have hceiling : (r.withCeiling ceiling).ceiling = ceiling := by
    rw [withCeiling, if_pos hpos]
    rfl
  unfold reduceUnder reduce
  rw [hceiling]
  rfl

/-- A run under one ceiling tells the run under a higher one. -/
theorem reduceUnder_cut (r : Reducer) {low high : Nat} (hlow : 0 < low) (hle : low ≤ high)
    (t : Term) :
    (∀ n stats, r.reduceUnder low t = (.ok n, stats) → r.reduceUnder high t = (.ok n, stats)) ∧
    ∀ e stats, r.reduceUnder low t = (.error e, stats) →
      stats.steps ≤ (r.reduceUnder high t).2.steps ∧
      stats.beta ≤ (r.reduceUnder high t).2.beta ∧
      stats.alpha ≤ (r.reduceUnder high t).2.alpha := by
  have hcut := normalize_cut hle t
  rw [r.reduceUnder_eq hlow, r.reduceUnder_eq (Nat.lt_of_lt_of_le hlow hle)]
  generalize normalize low t = run at hcut ⊢
  generalize normalize high t = run' at hcut ⊢
  cases hcut with
  | returned n progress =>
    constructor
    · intro n stats h
      exact h
    · intro e stats h
      cases h
  | stopped hsteps hlog =>
    constructor
    · intro n stats h
      cases h
    · intro e stats h
      cases h
      exact ⟨hsteps, hlog.sublist.countP_le, hlog.sublist.countP_le⟩

/-- A run ends within the ceiling, or with the first visit over it. -/
theorem reduceUnder_bounded (r : Reducer) {ceiling : Nat} (hpos : 0 < ceiling) (t : Term) :
    (∃ n stats, r.reduceUnder ceiling t = (.ok n, stats) ∧ stats.steps ≤ ceiling) ∨
    ∃ stats, r.reduceUnder ceiling t = (.error (.outOfBounds ceiling), stats) ∧
      stats.steps = ceiling + 1 := by
  have hbounded := normalize_bounded ceiling t
  rw [r.reduceUnder_eq hpos]
  generalize normalize ceiling t = run at hbounded ⊢
  rcases run with ⟨e | n, progress⟩
  · obtain ⟨rfl, hover⟩ := hbounded
    exact .inr ⟨_, rfl, hover⟩
  · exact .inl ⟨n, _, rfl, hbounded⟩

/-- A run that returns decides the run under any other ceiling: it returns the same if the
    ceiling leaves room for the visits, and fails if it does not. -/
theorem reduceUnder_other (r : Reducer) {ceiling other : Nat} {t n : Term} {stats : Stats}
    (hpos : 0 < ceiling) (hother : 0 < other) (h : r.reduceUnder ceiling t = (.ok n, stats)) :
    stats.steps ≤ other ∧ r.reduceUnder other t = (.ok n, stats) ∨
    other < stats.steps ∧ ∃ e stats', r.reduceUnder other t = (.error e, stats') := by
  rcases reduceUnder_bounded r hother t with ⟨n', stats', h', hwithin⟩ | ⟨stats', h', hover⟩
  · -- of two runs that return, the one under the lower ceiling tells the other
    have hsame : r.reduceUnder other t = (.ok n, stats) := by
      rcases Nat.le_total ceiling other with hle | hle
      · exact (reduceUnder_cut r hpos hle t).1 n stats h
      · have heq := (reduceUnder_cut r hother hle t).1 n' stats' h'
        rw [h', ← heq, h]
    have hstats : stats' = stats := congrArg Prod.snd (h'.symm.trans hsame)
    exact .inl ⟨hstats ▸ hwithin, hsame⟩
  · -- the run fails, so its ceiling is the lower one
    have hlt : other < ceiling := by
      by_contra hge
      have hsame := (reduceUnder_cut r hpos (Nat.not_lt.1 hge) t).1 n stats h
      rw [h'] at hsame
      cases hsame
    have hsteps := ((reduceUnder_cut r hother (Nat.le_of_lt hlt) t).2 _ _ h').1
    rw [h] at hsteps
    have hover' : other + 1 ≤ stats.steps := hover ▸ hsteps
    exact .inr ⟨hover', _, _, h'⟩

/-- The number of visits of a reduction is an exact threshold for the ceiling.  From it on, the
    reduction returns the same with the same statistics, and below it fails.  A failure is
    always one of the ceiling, with one visit over it, and with no more conversions than there
    are under any higher ceiling. -/
theorem reduceUnder_threshold (r : Reducer) (t : Term) {ceiling : Nat} (hpos : 0 < ceiling) :
    (∀ n stats, r.reduceUnder ceiling t = (.ok n, stats) →
      stats.steps ≤ ceiling ∧
      (∀ other, 0 < other → stats.steps ≤ other → r.reduceUnder other t = (.ok n, stats)) ∧
      ∀ other, 0 < other → other < stats.steps →
        ∃ e stats', r.reduceUnder other t = (.error e, stats')) ∧
    ∀ e stats, r.reduceUnder ceiling t = (.error e, stats) →
      e = .outOfBounds ceiling ∧ stats.steps = ceiling + 1 ∧
      ∀ higher, ceiling < higher →
        stats.beta ≤ (r.reduceUnder higher t).2.beta ∧
        stats.alpha ≤ (r.reduceUnder higher t).2.alpha := by
  constructor
  · intro n stats h
    refine ⟨?_, fun other hother hle => ?_, fun other hother hlt => ?_⟩
    · rcases reduceUnder_other r hpos hpos h with ⟨hle, -⟩ | ⟨-, e, stats', h'⟩
      · exact hle
      · rw [h] at h'
        cases h'
    · rcases reduceUnder_other r hpos hother h with ⟨-, hsame⟩ | ⟨hlt, -⟩
      · exact hsame
      · omega
    · rcases reduceUnder_other r hpos hother h with ⟨hle, -⟩ | ⟨-, hfails⟩
      · omega
      · exact hfails
  · intro e stats h
    rcases reduceUnder_bounded r hpos t with ⟨n, stats', h', -⟩ | ⟨stats', h', hover⟩
    · rw [h] at h'
      cases h'
    · rw [h] at h'
      cases h'
      refine ⟨rfl, hover, fun higher hlt => ?_⟩
      exact ((reduceUnder_cut r hpos (Nat.le_of_lt hlt) t).2 _ _ h).2

/-- The term `(λx.λy.x) y` needs six visits. -/
theorem reduceUnder_threshold_six :
    0 < 10 ∧
    ({} : Reducer).reduceUnder 6
        (.app (.abs "x" .missing (.abs "y" .missing (.var "x"))) (.var "y")) =
      (.ok (.abs "y1" .missing (.var "y")), ⟨6, 1, 1⟩) ∧
    ∃ e stats, ({} : Reducer).reduceUnder 5
        (.app (.abs "x" .missing (.abs "y" .missing (.var "x"))) (.var "y")) =
      (.error e, stats) := by
  have h : ({} : Reducer).reduceUnder 10
      (.app (.abs "x" .missing (.abs "y" .missing (.var "x"))) (.var "y")) =
      (.ok (.abs "y1" .missing (.var "y")), ⟨6, 1, 1⟩) := by decide +kernel
  have hpos : 0 < 10 := by decide
  obtain ⟨-, hfrom, hbelow⟩ := (reduceUnder_threshold {} _ hpos).1 _ _ h
  exact ⟨hpos, hfrom 6 (by decide) (by decide), hbelow 5 (by decide) (by decide)⟩

/-! ### Reducing a result again -/

/-- The result of a reduction has at most as many nodes as there were visits.  So under the same
    ceiling it is reduced to itself, with a visit of each node and no conversion. -/
theorem reduce_result_again (r r' : Reducer) (t n : Term) (hceiling : r'.ceiling = r.ceiling)
    (h : (r.reduce t).1 = .ok n) :
    n.size ≤ (r.reduce t).2.stats.steps ∧
    (r'.reduce n).1 = .ok n ∧ (r'.reduce n).2.stats = ⟨n.size, 0, 0⟩ := by
  have hrun : normalize r.ceiling t = (.ok n, (r.reduce t).2.progress) := Prod.ext h rfl
  obtain ⟨hsize, hagain⟩ := normalize_again hrun
  rw [← hceiling] at hagain
  exact ⟨hsize, congrArg Prod.fst hagain, congrArg (fun run => run.2.stats) hagain⟩

/-- The normal form `λy1.y` of `(λx.λy.x) y` has two nodes and comes back under the ceiling of
    six visits that it took. -/
theorem reduce_result_again_six :
    (({ ceiling := 6 } : Reducer).reduce
        (.app (.abs "x" .missing (.abs "y" .missing (.var "x"))) (.var "y"))).1 =
      .ok (.abs "y1" .missing (.var "y")) ∧
    (({ ceiling := 6 } : Reducer).reduce (.abs "y1" .missing (.var "y"))).1 =
      .ok (.abs "y1" .missing (.var "y")) ∧
    (({ ceiling := 6 } : Reducer).reduce (.abs "y1" .missing (.var "y"))).2.stats = ⟨2, 0, 0⟩ := by
  have h : (({ ceiling := 6 } : Reducer).reduce
      (.app (.abs "x" .missing (.abs "y" .missing (.var "x"))) (.var "y"))).1 =
      .ok (.abs "y1" .missing (.var "y")) := by decide +kernel
  exact ⟨h, (reduce_result_again { ceiling := 6 } { ceiling := 6 } _ _ rfl h).2⟩

end Reducer

end Redex
