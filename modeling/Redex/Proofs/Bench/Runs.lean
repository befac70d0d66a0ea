import Redex.Bench
import Redex.Proofs.Pipeline.Stability

/-! # Timed runs

    A line is taken through all stages once before anything is timed.  The timed runs then leave
    out what that has checked: they go on with the phrase as it was first read, and all
    reductions share one reducer, whatever the earlier ones have left in it.

    None of this shows.  Every timed run succeeds, in any order and any number, and every
    reduction among them gives the expression of the output (`bench_times_successes`). -/

namespace Redex.Config

open Reduction

variable {config : Config} {input : String} {tokens : List Token} {phrase : Phrase}

/-- The reducer behind a sequence of timed runs, which all share it. -/
def reducerBehind (config : Config) (input : String) (tokens : List Token) (phrase : Phrase)
    (runs : List Timing) : Reducer :=
  runs.foldl (fun reducer timing => (config.timedRun input tokens phrase reducer timing).2)
    config.reducer

/-- What one run of a timing comes to, behind a sequence of timed runs. -/
def outcomeBehind (config : Config) (input : String) (tokens : List Token) (phrase : Phrase)
    (runs : List Timing) (timing : Timing) : Timing.Outcome :=
  (config.timedRun input tokens phrase (config.reducerBehind input tokens phrase runs) timing).1

/-! ### The shared reducer -/

/-- A timed run leaves the ceiling as it is. -/
theorem timedRun_ceiling (reducer : Reducer) (timing : Timing) :
    (config.timedRun input tokens phrase reducer timing).2.ceiling = reducer.ceiling := by
  cases timing <;> rfl

theorem reducerBehind_ceiling (runs : List Timing) :
    (config.reducerBehind input tokens phrase runs).ceiling = config.reducer.ceiling := by
  unfold reducerBehind
  generalize config.reducer = reducer
  induction runs generalizing reducer with
  | nil => rfl
  | cons timing runs ih =>
    rw [List.foldl_cons, ih, timedRun_ceiling]

/-- A reduction behind any timed runs is that of a new reducer. -/
theorem reducerBehind_reduce (runs : List Timing) (t : Term) :
    ((config.reducerBehind input tokens phrase runs).reduce t).1 =
      (config.reducer.reduce t).1 := by
  show (normalize _ t).1 = (normalize _ t).1
  rw [reducerBehind_ceiling]

/-! ### Lines that are timed -/

/-- With a positive number of iterations, a line is timed if it has a result. -/
theorem bench_of_ok {iterations : Int} (h : 0 < iterations) {result : LineResult}
    (hprocess : config.process 0 input = .ok result) :
    config.bench input iterations = .ok ⟨input, iterations⟩ := by
  unfold bench
  rw [if_neg (Int.not_le.2 h), hprocess]

theorem bench_of_error {iterations : Int} (h : 0 < iterations) {e : StageError}
    (hprocess : config.process 0 input = .error e) :
    config.bench input iterations = .error (.failed e) := by
  unfold bench
  rw [if_neg (Int.not_le.2 h), hprocess]

/-- With a result there are tokens, and a phrase that passes the check, and what the output shows
    is left of the expression of that phrase: the phrase that was first read. -/
theorem exists_phrase_of_process {result : LineResult}
    (h : config.process 0 input = .ok result) :
    ∃ tokens phrase n, Token.scan input = .ok tokens ∧
      Phrase.ofTokens config.mode tokens = .ok phrase ∧ phrase.check = .ok () ∧
      config.Leaves phrase.term n ∧ result.output = (phrase.withTerm n).render := by
  obtain ⟨phrase, n, hread, -, hcheck, hleaves, houtput⟩ := exists_of_process h
  obtain ⟨tokens, hscan, htokens⟩ := readPhrase_eq_ok_iff.1 hread
  exact ⟨tokens, phrase, n, hscan, htokens, hcheck, hleaves, houtput⟩

/-- Only where expressions are reduced are reductions timed. -/
theorem reduce_of_mem_timings (h : Timing.reduce ∈ config.timings) : config.reduce = true := by
  unfold timings at h
  by_cases hreduce : config.reduce = true
  · exact hreduce
  · rw [if_neg hreduce] at h
    cases htyped : config.mode.isTyped <;> simp [htyped] at h

/-- A line is timed exactly if it has a result, and otherwise its failure is reported.  Where it
    is timed, no timed run fails: behind any sequence of runs, the line is scanned, its tokens are
    read, the phrase that they spell passes the check, the reducer that the runs share brings its
    expression to normal form, and all stages together give the same result.  Each run comes to
    just this.  The phrase about the normal form has the text that the result has for its
    output. -/
theorem bench_times_successes {iterations : Int} (h : 0 < iterations) :
    ((∃ report, config.bench input iterations = .ok report) ↔
      ∃ result, config.process 0 input = .ok result) ∧
    (∀ e, config.process 0 input = .error e → config.bench input iterations = .error (.failed e)) ∧
    ∀ report, config.bench input iterations = .ok report →
      ∃ tokens phrase result,
        Token.scan input = .ok tokens ∧ Phrase.ofTokens config.mode tokens = .ok phrase ∧
        phrase.check = .ok () ∧ config.process 0 input = .ok result ∧
        ∀ runs : List Timing,
          (∀ timing ∈ config.timings,
            (config.outcomeBehind input tokens phrase runs timing).passed = true) ∧
          config.outcomeBehind input tokens phrase runs .tokenize = .scanned (.ok tokens) ∧
          config.outcomeBehind input tokens phrase runs .parse = .read (.ok phrase) ∧
          config.outcomeBehind input tokens phrase runs .typeCheck = .checked (.ok ()) ∧
          config.outcomeBehind input tokens phrase runs .combined = .processed (.ok result) ∧
          (config.reduce = true → ∃ normal,
            config.outcomeBehind input tokens phrase runs .reduce = .reduced (.ok normal) ∧
            ((config.reducerBehind input tokens phrase runs).reduce phrase.term).1 = .ok normal ∧
            (phrase.withTerm normal).render = result.output) := by
  cases hprocess : config.process 0 input with
  | error e => simp [bench_of_error h hprocess]
  | ok result =>
    have htimed := bench_of_ok h hprocess
    refine ⟨by simp [htimed], by simp, fun report _ => ?_⟩
    obtain ⟨tokens, phrase, n, hscan, htokens, hcheck, hleaves, houtput⟩ :=
      exists_phrase_of_process hprocess
    have hreduces : config.reduce = true → ∀ runs,
        ((config.reducerBehind input tokens phrase runs).reduce phrase.term).1 = .ok n := by
      intro hreduce runs
      rw [Leaves, if_pos hreduce] at hleaves
      rw [reducerBehind_reduce, hleaves]
    refine ⟨tokens, phrase, result, hscan, htokens, hcheck, rfl, fun runs => ?_⟩
    have hscanned : config.outcomeBehind input tokens phrase runs .tokenize =
        .scanned (.ok tokens) := congrArg Timing.Outcome.scanned hscan
    have hread : config.outcomeBehind input tokens phrase runs .parse = .read (.ok phrase) :=
      congrArg Timing.Outcome.read htokens
    have hchecked : config.outcomeBehind input tokens phrase runs .typeCheck = .checked (.ok ()) :=
      congrArg Timing.Outcome.checked hcheck
    have hreduced (hreduce : config.reduce = true) :
        config.outcomeBehind input tokens phrase runs .reduce = .reduced (.ok n) :=
      congrArg Timing.Outcome.reduced (hreduces hreduce runs)
    have hprocessed : config.outcomeBehind input tokens phrase runs .combined =
        .processed (.ok result) := congrArg Timing.Outcome.processed hprocess
    refine ⟨?_, hscanned, hread, hchecked, hprocessed, ?_⟩
    · intro timing hmem
      cases timing with
      | tokenize => rw [hscanned]; rfl
      | parse => rw [hread]; rfl
      | typeCheck => rw [hchecked]; rfl
      | reduce => rw [hreduced (reduce_of_mem_timings hmem)]; rfl
      | combined => rw [hprocessed]; rfl
    · intro hreduce
      exact ⟨n, hreduced hreduce, hreduces hreduce runs, houtput.symm⟩

/-- The line `(λx.λy.x) y` gives `λy1.y`.  The reducer that has renamed `y` to `y1` twice renames
    it to `y1` again. -/
theorem bench_times_successes_fresh_again :
    0 < (3 : Int) ∧
    ∃ phrase tokens, Phrase.ofTokens .untyped tokens = .ok phrase ∧
      ∃ normal,
        ((({} : Config).reducerBehind "(λx.λy.x) y" tokens phrase
          [.reduce, .parse, .reduce]).reduce phrase.term).1 = .ok normal ∧
        (phrase.withTerm normal).render = "λy1.y" := by
  have hreadable : (Phrase.expression (.app (.abs "x" .missing (.abs "y" .missing (.var "x")))
      (.var "y"))).Readable ({} : Config).mode := ⟨rfl, by decide, by decide⟩
  have hrun : ({} : Config).process 0 "(λx.λy.x) y" =
      .ok ⟨0, "(λx.λy.x) y", "(λx.λy.x) y", "λy1.y", ⟨6, 1, 1⟩, none⟩ := by
    refine (process_render_eq hreadable).trans ?_
    decide +kernel
  have hpositive : 0 < (3 : Int) := by decide
  obtain ⟨tokens, phrase, result, -, htokens, -, hresult, hruns⟩ :=
    (bench_times_successes hpositive).2.2 _ (bench_of_ok hpositive hrun)
  obtain ⟨-, -, -, -, -, hreduces⟩ := hruns [.reduce, .parse, .reduce]
  obtain ⟨normal, -, hnormal, houtput⟩ := hreduces rfl
  cases hrun.symm.trans hresult
  exact ⟨hpositive, phrase, tokens, htokens, normal, hnormal, houtput⟩

end Redex.Config
