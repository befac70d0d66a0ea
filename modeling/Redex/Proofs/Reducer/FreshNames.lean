import Mathlib.Data.List.Induction
import Redex.Proofs.Reducer.NameClash
import Redex.Proofs.Reduction.Course
import Redex.Proofs.Reduction.Simulation

/-! # Fresh names over a whole run

    A run is a reduction, whether it returns or not, and any number of substitutions behind it.
    The intermediate terms of a run are not kept, but their names are: each of them is in use.
    So a name that is handed out differs from all of them, and from the names handed out before.

    The invariant is that the names in use are those of the terms that were passed in and those
    that were handed out, and nothing else (`Reducer.Accounted`).  Handing out is what
    `Progress.Move` does to the supply, so one lemma about moves (`Moves.exists_mints`) carries
    reductions and substitutions alike. -/

namespace Redex

open Reduction

namespace Reduction

/-- The name that a conversion hands out. -/
def Rule.fresh? : Rule → Option String
  | .beta _ => none
  | .alpha _ fresh => some fresh

namespace Progress

/-- The names handed out, in order. -/
def minted (progress : Progress) : List String :=
  progress.log.reverse.filterMap (·.rule.fresh?)

/-- One name is handed out with each renaming that is counted. -/
theorem length_minted (progress : Progress) : progress.minted.length = progress.stats.alpha := by
  unfold minted stats
  rw [List.length_filterMap_eq_countP, List.countP_reverse]
  apply List.countP_congr
  intro event _
  cases event.rule <;> simp [Rule.fresh?, Rule.isAlpha, Rule.isBeta]

theorem minted_renameBinder (progress : Progress) (x : String) :
    (progress.renameBinder x).2.minted = progress.minted ++ [(progress.renameBinder x).1] := by
  simp [minted, renameBinder, record, Rule.fresh?]

/-- Between two points of a run, the names `new` are handed out: none twice, none that was in
    use, and they alone are put into use. -/
structure Mints (progress progress' : Progress) (new : List String) : Prop where
  minted : progress'.minted = progress.minted ++ new
  nodup : new.Nodup
  unused : ∀ x ∈ new, x ∉ progress.supply.used
  used : ∀ x, x ∈ progress'.supply.used ↔ x ∈ progress.supply.used ∨ x ∈ new

/-- A point of a run where nothing is handed out. -/
theorem Mints.of_eq {start progress progress' : Progress} {new : List String}
    (h : Mints start progress new) (hminted : progress'.minted = progress.minted)
    (hsupply : progress'.supply = progress.supply) : Mints start progress' new := by
  refine ⟨hminted.trans h.minted, h.nodup, h.unused, ?_⟩
  rw [hsupply]
  exact h.used

/-- One more name is handed out.  It is not in use, so it differs from the names before. -/
theorem Mints.renameBinder {start progress : Progress} {new : List String}
    (h : Mints start progress new) (x : String) :
    Mints start (progress.renameBinder x).2 (new ++ [(progress.renameBinder x).1]) := by
  have hfresh : (progress.renameBinder x).1 ∉ progress.supply.used :=
    Supply.fresh_not_mem progress.supply x
  rw [h.used, not_or] at hfresh
  constructor
  · rw [minted_renameBinder, h.minted, List.append_assoc]
  · rw [List.nodup_append]
    refine ⟨h.nodup, List.nodup_singleton _, ?_⟩
    intro y hy z hz heq
    rw [List.mem_singleton] at hz
    exact hfresh.2 (hz ▸ heq ▸ hy)
  · intro y hy
    rcases List.mem_append.1 hy with hy | hy
    · exact h.unused y hy
    · rw [List.mem_singleton.1 hy]
      exact hfresh.1
  · intro y
    have hused : y ∈ (progress.renameBinder x).2.supply.used ↔
        y = (progress.renameBinder x).1 ∨ y ∈ progress.supply.used :=
      Supply.mem_fresh_used progress.supply x y
    rw [hused, h.used, List.mem_append, List.mem_singleton]
    tauto

theorem Moves.exists_mints {progress progress' : Progress} (h : progress.Moves progress') :
    ∃ new, Mints progress progress' new := by
  induction h with
  | refl => exact ⟨[], by simp, List.nodup_nil, by simp, by simp⟩
  | tail _ hmove ih =>
    obtain ⟨new, hmints⟩ := ih
    cases hmove with
    | visit => exact ⟨new, hmints.of_eq rfl rfl⟩
    | contract binder => exact ⟨new, hmints.of_eq (by simp [minted, record, Rule.fresh?]) rfl⟩
    | rename binder => exact ⟨_, hmints.renameBinder binder⟩

end Progress

end Reduction

/-! ### Runs -/

/-- A substitution that a reducer is asked for. -/
structure Replacement where
  term : Term
  name : String
  value : Term

/-- The name occurs in one of the two terms. -/
def Replacement.Mentions (call : Replacement) (x : String) : Prop :=
  call.term.Mentions x ∨ call.value.Mentions x

/-- The name occurs in a term that is reduced, or in one of the substitutions behind it. -/
def InputName (t : Term) (calls : List Replacement) (x : String) : Prop :=
  t.Mentions x ∨ ∃ call ∈ calls, call.Mentions x

theorem inputName_concat {t : Term} {calls : List Replacement} {call : Replacement} {x : String} :
    InputName t (calls ++ [call]) x ↔ InputName t calls x ∨ call.Mentions x := by
  simp only [InputName, List.mem_append, List.mem_singleton]
  constructor
  · rintro (ht | ⟨c, hc | rfl, hx⟩)
    · exact .inl (.inl ht)
    · exact .inl (.inr ⟨c, hc, hx⟩)
    · exact .inr hx
  · rintro ((ht | ⟨c, hc, hx⟩) | hx)
    · exact .inl ht
    · exact .inr ⟨c, .inl hc, hx⟩
    · exact .inr ⟨call, .inr rfl, hx⟩

namespace Reducer

/-- Makes a substitution. -/
def replace (r : Reducer) (call : Replacement) : Term × Reducer :=
  r.substitute call.term call.name call.value

/-- A reducer behind a number of substitutions. -/
def afterAll (r : Reducer) (calls : List Replacement) : Reducer :=
  calls.foldl (fun r call => (r.replace call).2) r

theorem afterAll_concat (r : Reducer) (calls : List Replacement) (call : Replacement) :
    r.afterAll (calls ++ [call]) = ((r.afterAll calls).replace call).2 := by
  simp [afterAll]

/-- The names handed out since the start of the last reduction, in order. -/
def minted (r : Reducer) : List String :=
  r.progress.minted

/-- The names in use are those passed in and those handed out, and none was handed out twice. -/
structure Accounted (r : Reducer) (input : String → Prop) : Prop where
  nodup : r.minted.Nodup
  used : ∀ x, x ∈ r.progress.supply.used ↔ input x ∨ x ∈ r.minted

/-- What a reduction hands out is new to its term. -/
theorem reduce_mints (r : Reducer) (t : Term) :
    (Progress.ofTerm t).Mints (r.reduce t).2.progress (r.reduce t).2.minted := by
  have hmoves : (Progress.ofTerm t).Moves (r.reduce t).2.progress :=
    .head (.visit _) (visit_moves r.ceiling r.ceiling t (.ofTerm t))
  obtain ⟨new, hmints⟩ := hmoves.exists_mints
  have hnew : (r.reduce t).2.minted = new := hmints.minted
  rw [hnew]
  exact hmints

theorem reduce_accounted (r : Reducer) (t : Term) : (r.reduce t).2.Accounted t.Mentions := by
  have hmints := reduce_mints r t
  refine ⟨hmints.nodup, fun x => ?_⟩
  have hused : x ∈ (Progress.ofTerm t).supply.used ↔ t.Mentions x := Term.mem_names
  rw [hmints.used, hused]

/-- All names of the result of a reduction are in use. -/
theorem reduce_namedIn {r : Reducer} {t n : Term} (h : (r.reduce t).1 = .ok n) :
    n.NamedIn (r.reduce t).2.progress.supply.used := by
  have hagrees := normalize_agrees r.ceiling t
  have hrun : normalize r.ceiling t = (.ok n, (r.reduce t).2.progress) := Prod.ext h rfl
  rw [hrun] at hagrees
  exact hagrees.namedIn

section replace

variable {r : Reducer} {input : String → Prop} (h : r.Accounted input) (call : Replacement)
include h

/-- Before a substitution, the names of its two terms are put into use. -/
theorem Accounted.mem_supplyFor (x : String) :
    x ∈ (r.supplyFor call.term call.value).used ↔
      (input x ∨ call.Mentions x) ∨ x ∈ r.minted := by
  rw [mem_supplyFor_used, h.used, Replacement.Mentions]
  tauto

/-- What a substitution hands out is new to all that was passed in, its own terms included, and
    to what was handed out before. -/
theorem Accounted.exists_minted :
    ∃ new, (r.replace call).2.minted = r.minted ++ new ∧ new.Nodup ∧
      (∀ x ∈ new, ¬ (input x ∨ call.Mentions x) ∧ x ∉ r.minted) ∧
      ∀ x, x ∈ (r.replace call).2.progress.supply.used ↔
        (input x ∨ call.Mentions x) ∨ x ∈ (r.replace call).2.minted := by
  let start : Progress := { r.progress with supply := r.supplyFor call.term call.value }
  have hstart : ∀ x, x ∈ start.supply.used ↔ (input x ∨ call.Mentions x) ∨ x ∈ r.minted :=
    h.mem_supplyFor call
  obtain ⟨new, hmints⟩ :=
    (call.term.substitute_moves call.name call.value call.value.free start).exists_mints
  have hminted : (r.replace call).2.minted = r.minted ++ new := hmints.minted
  refine ⟨new, hminted, hmints.nodup, fun x hx => ?_, fun x => ?_⟩
  · have hunused := hmints.unused x hx
    rwa [hstart, not_or] at hunused
  · have hused : x ∈ (r.replace call).2.progress.supply.used ↔ x ∈ start.supply.used ∨ x ∈ new :=
      hmints.used x
    rw [hused, hstart, hminted, List.mem_append, or_assoc]

theorem Accounted.replace :
    (r.replace call).2.Accounted (fun x => input x ∨ call.Mentions x) := by
  obtain ⟨new, hminted, hnodup, hnew, hused⟩ := h.exists_minted call
  refine ⟨?_, hused⟩
  rw [hminted, List.nodup_append]
  refine ⟨h.nodup, hnodup, ?_⟩
  rintro x hx y hy rfl
  exact (hnew x hy).2 hx

/-- The names of the result of a substitution are accounted for as well. -/
theorem Accounted.of_mentions_replace {x : String} (hx : (r.replace call).1.Mentions x) :
    (input x ∨ call.Mentions x) ∨ x ∈ (r.replace call).2.minted := by
  let start : Progress := { r.progress with supply := r.supplyFor call.term call.value }
  have hterm : call.term.NamedIn start.supply.used := by
    intro y hy
    exact (h.mem_supplyFor call y).2 (.inl (.inr (.inl hy)))
  have hvalue : call.value.NamedIn start.supply.used := by
    intro y hy
    exact (h.mem_supplyFor call y).2 (.inl (.inr (.inr hy)))
  have hnamed : (r.replace call).1.NamedIn (r.replace call).2.progress.supply.used :=
    hterm.substitute hvalue
  exact ((h.replace call).used x).1 (hnamed x hx)

end replace

theorem Accounted.congr {r : Reducer} {input input' : String → Prop} (h : r.Accounted input)
    (hinput : ∀ x, input x ↔ input' x) : r.Accounted input' := by
  refine ⟨h.nodup, fun x => ?_⟩
  rw [← hinput]
  exact h.used x

/-- All along a run, the names in use are those passed in so far and those handed out. -/
theorem afterAll_accounted (r : Reducer) (t : Term) (calls : List Replacement) :
    ((r.reduce t).2.afterAll calls).Accounted (InputName t calls) := by
  induction calls using List.reverseRecOn with
  | nil =>
    apply (reduce_accounted r t).congr
    intro x
    simp [InputName]
  | append_singleton calls call ih =>
    rw [afterAll_concat]
    apply (ih.replace call).congr
    intro x
    exact inputName_concat.symm

/-- Over a whole run, a reduction that may fail and substitutions behind it, no name is handed
    out twice, and one is with each renaming that is counted.  The reduction hands out names
    that are new to its term, and each substitution names that are new to all terms passed in
    up to then.  Every name of a result was passed in or handed out before. -/
theorem minted_new_in_run (r : Reducer) (t : Term) (calls : List Replacement) :
    ((r.reduce t).2.afterAll calls).minted.Nodup ∧
    ((r.reduce t).2.afterAll calls).minted.length =
      ((r.reduce t).2.afterAll calls).stats.alpha ∧
    -- the reduction
    (∀ x ∈ (r.reduce t).2.minted, ¬ t.Mentions x) ∧
    (∀ n, (r.reduce t).1 = .ok n →
      ∀ x, n.Mentions x → t.Mentions x ∨ x ∈ (r.reduce t).2.minted) ∧
    -- each substitution
    ∀ before call after, calls = before ++ call :: after →
      ∃ new,
        ((r.reduce t).2.afterAll (before ++ [call])).minted =
          ((r.reduce t).2.afterAll before).minted ++ new ∧
        (∀ x ∈ new, ¬ InputName t (before ++ [call]) x) ∧
        ∀ x, (((r.reduce t).2.afterAll before).replace call).1.Mentions x →
          InputName t (before ++ [call]) x ∨
            x ∈ ((r.reduce t).2.afterAll (before ++ [call])).minted := by
  refine ⟨(afterAll_accounted r t calls).nodup, Progress.length_minted _, ?_, ?_, ?_⟩
  · intro x hx ht
    exact (reduce_mints r t).unused x hx (Term.mem_names.2 ht)
  · intro n hn x hx
    exact ((reduce_accounted r t).used x).1 (reduce_namedIn hn x hx)
  · rintro before call after -
    have haccounted := afterAll_accounted r t before
    obtain ⟨new, hminted, -, hnew, -⟩ := haccounted.exists_minted call
    simp only [inputName_concat, afterAll_concat]
    exact ⟨new, hminted, fun x hx => (hnew x hx).1,
      fun x hx => haccounted.of_mentions_replace call hx⟩

/-- The reduction of `(λx.λy.x) y` hands out `y1`.  Replacing `x` by `y1` in `λy1.x` then hands
    out `y12`, made of `y1` and the next number. -/
theorem minted_new_in_run_y12 :
    (({} : Reducer).reduce
        (.app (.abs "x" .missing (.abs "y" .missing (.var "x"))) (.var "y"))).1 =
      .ok (.abs "y1" .missing (.var "y")) ∧
    ((({} : Reducer).reduce
        (.app (.abs "x" .missing (.abs "y" .missing (.var "x"))) (.var "y"))).2.afterAll
      [⟨.abs "y1" .missing (.var "x"), "x", .var "y1"⟩]).minted = ["y1", "y12"] ∧
    ["y1", "y12"].Nodup ∧
    (∀ x, (Term.abs "y1" .missing (.var "y")).Mentions x →
      (Term.app (.abs "x" .missing (.abs "y" .missing (.var "x"))) (.var "y")).Mentions x ∨
        x ∈ ["y1"]) ∧
    ∃ new, ["y1", "y12"] = ["y1"] ++ new ∧
      ∀ x ∈ new, ¬ InputName
        (.app (.abs "x" .missing (.abs "y" .missing (.var "x"))) (.var "y"))
        [⟨.abs "y1" .missing (.var "x"), "x", .var "y1"⟩] x := by
  have hresult : (({} : Reducer).reduce
      (.app (.abs "x" .missing (.abs "y" .missing (.var "x"))) (.var "y"))).1 =
      .ok (.abs "y1" .missing (.var "y")) := by decide +kernel
  have hfirst : (({} : Reducer).reduce
      (.app (.abs "x" .missing (.abs "y" .missing (.var "x"))) (.var "y"))).2.minted =
      ["y1"] := by decide +kernel
  have hsecond : ((({} : Reducer).reduce
      (.app (.abs "x" .missing (.abs "y" .missing (.var "x"))) (.var "y"))).2.afterAll
      [⟨.abs "y1" .missing (.var "x"), "x", .var "y1"⟩]).minted = ["y1", "y12"] := by decide +kernel
  obtain ⟨hnodup, -, -, hnames, hcalls⟩ := minted_new_in_run {}
    (.app (.abs "x" .missing (.abs "y" .missing (.var "x"))) (.var "y"))
    [⟨.abs "y1" .missing (.var "x"), "x", .var "y1"⟩]
  obtain ⟨new, hminted, hnew, -⟩ := hcalls [] _ [] rfl
  rw [hsecond] at hnodup
  have hsplit := hsecond.symm.trans hminted
  have hstart : ((({} : Reducer).reduce
      (.app (.abs "x" .missing (.abs "y" .missing (.var "x"))) (.var "y"))).2.afterAll
      []).minted = ["y1"] := hfirst
  rw [hstart] at hsplit
  refine ⟨hresult, hsecond, hnodup, ?_, new, hsplit, hnew⟩
  intro x hx
  rw [← hfirst]
  exact hnames _ hresult x hx

end Reducer

end Redex
