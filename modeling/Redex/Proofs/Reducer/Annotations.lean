import Redex.Proofs.Reduction.Labels
import Redex.Proofs.Reduction.Rules
import Redex.Proofs.Term.Erasure
import Redex.Reducer

/-! # Annotations have no part in reduction

    A run of a term without its annotations is the run of the term, rule by rule: with the same
    names, the same events and the same visits, and its result is that of the term without its
    annotations (`Runs.erase`).

    The annotations stay with their binders.  A result has none that its term does not have. -/

namespace Redex

open Reduction

/-! ### Runs without annotations -/

theorem Term.erase_rename (t : Term) (old new : String) :
    (t.rename old new).erase = t.erase.rename old new := by
  induction t with
  | missing => rfl
  | var x => rfl
  | abs x ty body ih =>
    by_cases hx : x = old
    · simp only [rename, erase, if_pos hx]
    · simp only [rename, erase, if_neg hx, ih]
  | app fn arg ihf iha => simp only [rename, erase, ihf, iha]

namespace Reduction

theorem Replaces.erase {step : Nat} {name : String} {value t t' : Term}
    {supply supply' : Supply} {events : List Event}
    (h : Replaces step name value t supply events t' supply') :
    Replaces step name value.erase t.erase supply events t'.erase supply' := by
  induction h with
  | missing supply => exact .missing supply
  | here supply => exact .here supply
  | var supply hx => exact .var supply hx
  | hidden ty body supply => exact .hidden .missing body.erase supply
  | abs hx hfree _ ih =>
    -- whether a binder is in the way depends on the free names of the value alone
    exact .abs hx (by rwa [Term.hasFree_erase]) ih
  | rename hx hfree hfresh _ ih =>
    rw [Term.erase_rename] at ih
    exact .rename hx ((Term.hasFree_erase _ _).2 hfree) hfresh ih
  | app _ _ ihf iha => exact .app ihf iha

theorem Runs.erase {ceiling steps steps' : Nat} {t : Term} {supply supply' : Supply}
    {events : List Event} {result : Except ReduceError Term}
    (h : Runs ceiling t steps supply events result steps' supply') :
    Runs ceiling t.erase steps supply events (result.map Term.erase) steps' supply' := by
  induction h with
  | stops t supply hle => exact .stops t.erase supply hle
  | missing supply hlt => exact .missing supply hlt
  | var x supply hlt => exact .var x supply hlt
  | @abs x ty body steps steps' supply supply' events result hlt _ ih =>
    -- the annotation that the rule puts back on the binder is missing on both sides
    have hbody := @Runs.abs ceiling x .missing _ _ _ _ _ _ _ hlt ih
    cases result with
    | error e => exact hbody
    | ok body' => exact hbody
  | fails hlt _ ih => exact .fails hlt ih
  | redex hlt _ hcontract _ ihf ih => exact .redex hlt ihf hcontract.erase ih
  | @app fn fn' arg steps steps₁ steps₂ supply supply₁ supply₂ events events' result hlt _ isAbs _
      ihf iha =>
    have hargs := Runs.app hlt ihf ((fn'.isAbs_erase).trans isAbs) iha
    cases result with
    | error e => exact hargs
    | ok arg' => exact hargs

/-- The whole reduction of a term is that of the term without its annotations, but for those of
    the result. -/
theorem normalize_erase (ceiling : Nat) (t : Term) :
    normalize ceiling t.erase =
      ((normalize ceiling t).1.map Term.erase, (normalize ceiling t).2) := by
  have hstart : Supply.ofTerm t.erase = Supply.ofTerm t := by
    unfold Supply.ofTerm
    rw [Term.names_erase]
  have herased := normalize_runs ceiling t.erase
  rw [hstart] at herased
  obtain ⟨hevents, hresult, hsteps, hsupply⟩ :=
    herased.unique (normalize_runs ceiling t).erase
  have hlog := List.reverse_injective hevents
  -- result, visits, names and log are all that a run leaves behind
  generalize normalize ceiling t.erase = run at hresult hsteps hsupply hlog
  obtain ⟨result, steps, supply, log⟩ := run
  cases hresult
  cases hsteps
  cases hsupply
  cases hlog
  rfl

end Reduction

/-! ### Annotations of results -/

/-- A binder's annotation is one of the given ones. -/
def Label.AnnotatedBy (types : List Ty) : Label → Prop
  | .missing => True
  | .var _ => True
  | .abs _ ty => ty ∈ types

theorem Label.annotatedBy_renewable (types : List Ty) : Renewable (AnnotatedBy types) :=
  fun _ _ _ h => ⟨h, trivial⟩

theorem Term.every_annotatedBy_iff {t : Term} {types : List Ty} :
    t.Every (Label.AnnotatedBy types) ↔ ∀ ty ∈ t.annotations, ty ∈ types := by
  induction t with
  | missing => exact ⟨fun _ ty h => absurd h List.not_mem_nil, fun _ => trivial⟩
  | var x => exact ⟨fun _ ty h => absurd h List.not_mem_nil, fun _ => trivial⟩
  | abs x ty body ih =>
    unfold Every annotations
    rw [ih, List.forall_mem_cons]
    rfl
  | app fn arg ihf iha =>
    unfold Every annotations
    rw [ihf, iha, List.forall_mem_append]

namespace Reducer

theorem annotations_of_reduce {r : Reducer} {t n : Term} (h : (r.reduce t).1 = .ok n) :
    ∀ ty ∈ n.annotations, ty ∈ t.annotations := by
  have hrun : normalize r.ceiling t = (.ok n, (r.reduce t).2.progress) := Prod.ext h rfl
  have hnormalizes := normalizes_of_visit hrun
  have hown : t.Every (Label.AnnotatedBy t.annotations) :=
    Term.every_annotatedBy_iff.2 fun _ hty => hty
  exact Term.every_annotatedBy_iff.1
    (hnormalizes.every (Label.annotatedBy_renewable _) hown)

/-- A term without its annotations is reduced to the result of the term without its annotations,
    or fails as the term does, with the same statistics and the same trace; and every annotation
    of a result is one of the term. -/
theorem reduce_erase (r : Reducer) (t : Term) :
    (r.reduce t.erase).1 = (r.reduce t).1.map Term.erase ∧
    (r.reduce t.erase).2.stats = (r.reduce t).2.stats ∧
    (r.reduce t.erase).2.trace = (r.reduce t).2.trace ∧
    ∀ n, (r.reduce t).1 = .ok n → ∀ ty ∈ n.annotations, ty ∈ t.annotations := by
  have hreduce : r.reduce t.erase = ((r.reduce t).1.map Term.erase, (r.reduce t).2) := by
    unfold reduce
    rw [normalize_erase]
  rw [hreduce]
  exact ⟨rfl, rfl, rfl, fun n h => annotations_of_reduce h⟩

/-- In `(λx^A.λy^(B -> C).x) y` the binder `y` is renamed and keeps its annotation, and that of `x`
    goes with the redex. -/
theorem reduce_erase_renamed :
    (({} : Reducer).reduce (.app (.abs "x" .missing (.abs "y" .missing (.var "x")))
        (.var "y"))).1 = .ok (.abs "y1" .missing (.var "y")) ∧
    (({} : Reducer).reduce (.app (.abs "x" (.base "A")
        (.abs "y" (.arrow (.base "B") (.base "C")) (.var "x"))) (.var "y"))).1 =
      .ok (.abs "y1" (.arrow (.base "B") (.base "C")) (.var "y")) ∧
    ∀ ty ∈ [Ty.arrow (.base "B") (.base "C")],
      ty ∈ [.base "A", Ty.arrow (.base "B") (.base "C")] := by
  have hresult : (({} : Reducer).reduce (.app (.abs "x" (.base "A")
      (.abs "y" (.arrow (.base "B") (.base "C")) (.var "x"))) (.var "y"))).1 =
      .ok (.abs "y1" (.arrow (.base "B") (.base "C")) (.var "y")) := by decide +kernel
  obtain ⟨herase, -, -, hannotations⟩ := reduce_erase {} (.app (.abs "x" (.base "A")
    (.abs "y" (.arrow (.base "B") (.base "C")) (.var "x"))) (.var "y"))
  rw [hresult] at herase
  exact ⟨herase, hresult, hannotations _ hresult⟩

end Reducer

end Redex
