import Redex.Proofs.Phrase.Reduced
import Redex.Proofs.Pipeline.Rereading
import Redex.Proofs.Reducer.Threshold

/-! # Output lines as input lines

    The output of a line is the text of a phrase that can be read again.  Where lines are
    expressions, it is a fixed point: taken as a line, it gives itself, without a conversion.
    Where lines are judgements, it is read as the judgement about the reduced expression, which
    is still closed; it fails the naming check at most for a base type whose annotations were
    reduced away (`process_output_stable`). -/

namespace Redex

open Reduction

/-! ### Modes and phrases -/

theorem Mode.isTyped_iff {mode : Mode} : mode.isTyped = true ↔ mode = .typed := by
  cases mode <;> simp [isTyped]

namespace Phrase

theorem withTerm_term (phrase : Phrase) : phrase.withTerm phrase.term = phrase := by
  cases phrase <;> rfl

theorem judgement_of_ofTokens {tokens : List Token} {j : Judgement}
    (h : ofTokens .typed tokens = .ok (.judgement j)) : Judgement.ofTokens .typed tokens = .ok j := by
  have hmap : (Judgement.ofTokens .typed tokens).map judgement = .ok (judgement j) := h
  obtain ⟨j', hj, hsame⟩ := Token.exists_of_map_eq_ok hmap
  cases hsame
  exact hj

theorem Readable.term {mode : Mode} {phrase : Phrase} (h : phrase.Readable mode) :
    phrase.term.Readable mode := by
  cases phrase with
  | expression t => exact h.2
  | judgement j => exact h.2.1

theorem Readable.withTerm {mode : Mode} {phrase : Phrase} {n : Term} (h : phrase.Readable mode)
    (hn : n.Readable mode) : (phrase.withTerm n).Readable mode := by
  cases phrase with
  | expression t => exact ⟨h.1, hn⟩
  | judgement j => exact ⟨h.1, hn, h.2.2⟩

end Phrase

namespace Config

/-! ### What is left of an expression -/

/-- The configuration leaves `n` of the expression `t`: its normal form if expressions are
    reduced, and otherwise the expression itself. -/
def Leaves (config : Config) (t n : Term) : Prop :=
  if config.reduce then (config.reducer.reduce t).1 = .ok n else n = t

theorem Leaves.readable {config : Config} {mode : Mode} {t n : Term} (h : config.Leaves t n)
    (ht : t.Readable mode) : n.Readable mode := by
  unfold Leaves at h
  split at h
  · exact Reducer.readable_of_reduce h ht
  · rw [h]
    exact ht

theorem Leaves.hasFree {config : Config} {t n : Term} (h : config.Leaves t n) {x : String}
    (hx : n.HasFree x) : t.HasFree x := by
  unfold Leaves at h
  split at h
  · exact Reducer.hasFree_of_reduce h hx
  · rwa [h] at hx

/-- What is left of an expression is left as it is, and without a conversion. -/
theorem Leaves.again {config : Config} {t n : Term} (h : config.Leaves t n) :
    config.Leaves n n ∧
      (config.reduce = true → (config.reducer.reduce n).2.stats = ⟨n.size, 0, 0⟩) := by
  unfold Leaves at h ⊢
  split at h
  · rename_i hreduce
    have hrun : normalize config.reducer.ceiling t =
        (.ok n, (normalize config.reducer.ceiling t).2) := Prod.ext h rfl
    have hagain := (normalize_again hrun).2
    rw [if_pos hreduce]
    exact ⟨congrArg Prod.fst hagain, fun _ => congrArg (fun run => run.2.stats) hagain⟩
  · rename_i hreduce
    rw [if_neg hreduce]
    exact ⟨rfl, fun hreduce' => absurd hreduce' hreduce⟩

/-! ### Lines -/

variable {config : Config} {line : Int} {input : String}

/-- The result of a line whose phrase passes the check. -/
theorem exists_of_finish {phrase : Phrase} {result : LineResult}
    (h : config.finish line input phrase.render phrase = .ok result) :
    phrase.check = .ok () ∧
      ∃ n, config.Leaves phrase.term n ∧ result.output = (phrase.withTerm n).render := by
  unfold finish at h
  split at h
  · cases h
  · rename_i hcheck
    refine ⟨hcheck, ?_⟩
    split at h
    · rename_i hreduce
      split at h
      · cases h
      · rename_i n r hrun
        cases h
        refine ⟨n, ?_, rfl⟩
        rw [Leaves, if_pos hreduce, hrun]
    · rename_i hreduce
      cases h
      refine ⟨phrase.term, ?_, ?_⟩
      · rw [Leaves, if_neg hreduce]
      · rw [Phrase.withTerm_term]

/-- A line with a result has been read as a phrase that can be read again; its output is the
    text of the phrase with what is left of its expression. -/
theorem exists_of_process {result : LineResult} (h : config.process line input = .ok result) :
    ∃ phrase n, config.readPhrase line .tokenizing .parsing input = .ok phrase ∧
      phrase.Readable config.mode ∧ phrase.check = .ok () ∧
      config.Leaves phrase.term n ∧ result.output = (phrase.withTerm n).render := by
  cases hread : config.readPhrase line .tokenizing .parsing input with
  | error e =>
    unfold process at h
    rw [hread] at h
    cases h
  | ok phrase =>
    rw [process_of_readPhrase hread] at h
    obtain ⟨hcheck, n, hleaves, houtput⟩ := exists_of_finish h
    obtain ⟨tokens, hscan, htokens⟩ := readPhrase_eq_ok_iff.1 hread
    have hreadable := Phrase.readable_of_ofTokens (Token.wellNamed_of_scanFrom hscan) htokens
    exact ⟨phrase, n, rfl, hreadable, hcheck, hleaves, houtput⟩

/-- A phrase that passes the check and of whose expression something is left has a result. -/
theorem finish_of_leaves {phrase : Phrase} {n : Term} (hcheck : phrase.check = .ok ())
    (hleaves : config.Leaves phrase.term n) :
    ∃ result, config.finish line input phrase.render phrase = .ok result ∧
      result.parsed = phrase.render ∧ result.output = (phrase.withTerm n).render ∧
      (config.reduce = true → result.stats = (config.reducer.reduce phrase.term).2.stats) := by
  unfold Leaves at hleaves
  unfold finish
  rw [hcheck]
  by_cases hreduce : config.reduce = true
  · rw [if_pos hreduce] at hleaves
    have hrun : config.reducer.reduce phrase.term =
        (.ok n, (config.reducer.reduce phrase.term).2) := Prod.ext hleaves rfl
    simp only [if_pos hreduce]
    rw [hrun]
    exact ⟨_, rfl, rfl, rfl, fun _ => rfl⟩
  · rw [if_neg hreduce] at hleaves
    simp only [if_neg hreduce]
    refine ⟨_, rfl, rfl, ?_, fun hreduce' => absurd hreduce' hreduce⟩
    rw [hleaves, Phrase.withTerm_term]

/-- The text of a phrase that can be read is a line with that phrase. -/
theorem process_render_eq {phrase : Phrase} (h : phrase.Readable config.mode) :
    config.process line phrase.render =
      config.finish line phrase.render phrase.render phrase := by
  have hread : config.readPhrase line .tokenizing .parsing phrase.render = .ok phrase :=
    readPhrase_eq_ok_iff.2 h.exists_scan_render
  exact process_of_readPhrase hread

/-- The text of a phrase that passes the check, and of whose expression something is left, is a
    line with a result. -/
theorem process_render {phrase : Phrase} {n : Term} (hreadable : phrase.Readable config.mode)
    (hcheck : phrase.check = .ok ()) (hleaves : config.Leaves phrase.term n) (line : Int) :
    ∃ result, config.process line phrase.render = .ok result ∧
      result.parsed = phrase.render ∧ result.output = (phrase.withTerm n).render ∧
      (config.reduce = true → result.stats = (config.reducer.reduce phrase.term).2.stats) := by
  rw [process_render_eq hreadable]
  exact finish_of_leaves hcheck hleaves

/-- Output lines are stable.

    The output of a line that is an expression is a line with itself as its text and its output,
    and no reduction step is taken on it.  The output of a line that is a judgement `j` is read
    as the judgement that what is left of the expression has the declared type; if it fails the
    check, the declared type names a base type that was reduced away. -/
theorem process_output_stable {result : LineResult}
    (h : config.process line input = .ok result) :
    (config.mode ≠ .typed → ∀ line', ∃ again,
      config.process line' result.output = .ok again ∧
      again.parsed = result.output ∧ again.output = result.output ∧
      (config.reduce = true → again.stats.beta = 0 ∧ again.stats.alpha = 0)) ∧
    (config.mode = .typed → ∃ tokens j n tokens',
      Token.scan input = .ok tokens ∧ Judgement.ofTokens .typed tokens = .ok j ∧
      config.Leaves j.term n ∧
      Token.scan result.output = .ok tokens' ∧
      Judgement.ofTokens .typed tokens' = .ok ⟨n, j.ty⟩ ∧
      (Judgement.check ⟨n, j.ty⟩ = .ok () ∨
        ∃ name, Judgement.check ⟨n, j.ty⟩ = .error (.mismatchedTypes [name]) ∧
          name ∈ j.term.annotationNames ∧ name ∉ n.annotationNames)) := by
  obtain ⟨phrase, n, hread, hreadable, hcheck, hleaves, houtput⟩ := exists_of_process h
  have hreadable' := hreadable.withTerm (hleaves.readable hreadable.term)
  rw [houtput]
  cases phrase with
  | expression t =>
    refine ⟨fun _ line' => ?_, fun htyped => ?_⟩
    · obtain ⟨hsame, hstats⟩ := hleaves.again
      obtain ⟨again, hagain, hparsed, houtput', hrun⟩ := process_render hreadable' rfl hsame line'
      refine ⟨again, hagain, hparsed, houtput', fun hreduce => ?_⟩
      have hnone : again.stats = ⟨n.size, 0, 0⟩ := (hrun hreduce).trans (hstats hreduce)
      rw [hnone]
      exact ⟨rfl, rfl⟩
    · have hnot := hreadable.1
      rw [htyped] at hnot
      cases hnot
  | judgement j =>
    have htyped := Mode.isTyped_iff.1 hreadable.1
    refine ⟨fun hnot => absurd htyped hnot, fun _ => ?_⟩
    obtain ⟨tokens, hscan, hofTokens⟩ := readPhrase_eq_ok_iff.1 hread
    obtain ⟨tokens', hscan', hofTokens'⟩ := hreadable'.exists_scan_render
    rw [htyped] at hofTokens hofTokens'
    exact ⟨tokens, j, n, tokens', hscan, Phrase.judgement_of_ofTokens hofTokens, hleaves, hscan',
      Phrase.judgement_of_ofTokens hofTokens',
      Judgement.check_of_hasFree hcheck fun _ hx => hleaves.hasFree hx⟩

/-- The line `(λx.λy.x) y` gives `λy1.y`, with a fresh name that is read again.  The line
    `((λx^A.λy^B.y) (λz^C.z)) : A` gives `(λy^B.y) : A`, in which no annotation is left for the
    base type `A`. -/
theorem process_output_stable_fresh_gone :
    (∃ result, ({} : Config).process 1 "(λx.λy.x) y" = .ok result ∧ result.output = "λy1.y" ∧
      ∃ again, ({} : Config).process 2 "λy1.y" = .ok again ∧ again.output = "λy1.y") ∧
    ∃ result, ({ mode := .typed } : Config).process 1 "((λx^A.λy^B.y) (λz^C.z)) : A" = .ok result ∧
      result.output = "(λy^B.y) : A" ∧
      ∃ tokens, Token.scan "(λy^B.y) : A" = .ok tokens ∧
        Judgement.ofTokens .typed tokens = .ok ⟨.abs "y" (.base "B") (.var "y"), .base "A"⟩ ∧
        Judgement.check ⟨.abs "y" (.base "B") (.var "y"), .base "A"⟩ =
          .error (.mismatchedTypes ["A"]) := by
  constructor
  · have hreadable : (Phrase.expression (.app (.abs "x" .missing (.abs "y" .missing (.var "x")))
        (.var "y"))).Readable ({} : Config).mode := ⟨rfl, by decide, by decide⟩
    have hrun : ({} : Config).process 1 "(λx.λy.x) y" =
        .ok ⟨1, "(λx.λy.x) y", "(λx.λy.x) y", "λy1.y", ⟨6, 1, 1⟩, none⟩ := by
      refine (process_render_eq hreadable).trans ?_
      decide +kernel
    obtain ⟨again, hagain, -, houtput, -⟩ :=
      (process_output_stable hrun).1 (by decide) 2
    exact ⟨_, hrun, rfl, again, hagain, houtput⟩
  · have hreadable : (Phrase.judgement
        ⟨.app (.abs "x" (.base "A") (.abs "y" (.base "B") (.var "y")))
          (.abs "z" (.base "C") (.var "z")), .base "A"⟩).Readable
        ({ mode := .typed } : Config).mode := ⟨rfl, ⟨by decide, by decide⟩, by decide⟩
    have hrun : ({ mode := .typed } : Config).process 1 "((λx^A.λy^B.y) (λz^C.z)) : A" =
        .ok ⟨1, "((λx^A.λy^B.y) (λz^C.z)) : A", "((λx^A.λy^B.y) (λz^C.z)) : A",
          "(λy^B.y) : A", ⟨6, 1, 0⟩, none⟩ := by
      refine (process_render_eq hreadable).trans ?_
      decide +kernel
    refine ⟨_, hrun, rfl, ?_⟩
    obtain ⟨tokens, j, n, tokens', hscan, hj, hleaves, hscan', hj', -⟩ :=
      (process_output_stable hrun).2 rfl
    -- The judgement of the line is the one that is printed there.
    obtain ⟨read, hread, hphrase⟩ := hreadable.exists_scan_render
    cases hread.symm.trans hscan
    cases (Phrase.judgement_of_ofTokens hphrase).symm.trans hj
    have hnormal : (({ mode := .typed } : Config).reducer.reduce
        (.app (.abs "x" (.base "A") (.abs "y" (.base "B") (.var "y")))
          (.abs "z" (.base "C") (.var "z")))).1 = .ok (.abs "y" (.base "B") (.var "y")) := by decide +kernel
    cases hnormal.symm.trans hleaves
    exact ⟨tokens', hscan', hj', by decide +kernel⟩

end Config

end Redex
