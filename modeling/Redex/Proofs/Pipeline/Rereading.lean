import Redex.Pipeline
import Redex.Proofs.Phrase.Reading
import Redex.Proofs.Token.Steps

/-! # The second reading of a line

    A line is written out and read again before it is checked and reduced.  The second
    reading never fails and never gives another phrase, whatever the line: leaving it out
    changes neither results nor failures (`process_eq_processOnce`). -/

namespace Redex.Config

/-- Takes a line through all stages but the second reading. -/
def processOnce (config : Config) (line : Int) (input : String) :
    Except StageError LineResult :=
  match config.readPhrase line .tokenizing .parsing input with
  | .error e => .error e
  | .ok phrase => config.finish line input phrase.render phrase

/-! ### Readings -/

/-- A line that is read has been scanned, and its tokens spell the phrase. -/
theorem readPhrase_eq_ok_iff {config : Config} {line : Int} {first second : Stage}
    {text : String} {phrase : Phrase} :
    config.readPhrase line first second text = .ok phrase ↔
      ∃ tokens, Token.scan text = .ok tokens ∧
        Phrase.ofTokens config.mode tokens = .ok phrase := by
  unfold readPhrase
  cases Token.scan text with
  | error e => simp
  | ok tokens => cases hread : Phrase.ofTokens config.mode tokens <;> simp [hread]

/-- A failure to read belongs to one of the two stages of the reading. -/
theorem failure_of_readPhrase {config : Config} {line : Int} {first second : Stage}
    {text : String} {e : StageError} (h : config.readPhrase line first second text = .error e) :
    ∃ stage cause, e = config.failure line stage cause ∧ (stage = first ∨ stage = second) := by
  unfold readPhrase at h
  split at h
  · cases h
    exact ⟨_, _, rfl, .inl rfl⟩
  · split at h
    · cases h
      exact ⟨_, _, rfl, .inr rfl⟩
    · cases h

/-- The text of a phrase that was read is read as that phrase. -/
theorem rereadPhrase_eq {config : Config} {line : Int} {first second : Stage}
    {text : String} {phrase : Phrase}
    (h : config.readPhrase line first second text = .ok phrase) :
    config.rereadPhrase line phrase = .ok phrase := by
  obtain ⟨tokens, hscan, htokens⟩ := readPhrase_eq_ok_iff.1 h
  have hnames := Token.wellNamed_of_scanFrom hscan
  obtain ⟨again, hrender, hagain⟩ := Phrase.scan_render_of_ofTokens hnames htokens
  have hread : config.readPhrase line .reparsing .reparsing phrase.render = .ok phrase :=
    readPhrase_eq_ok_iff.2 ⟨again, hrender, hagain⟩
  simp [rereadPhrase, hread]

/-! ### Whole lines -/

/-- A failure behind the readings belongs to the check or to the reduction. -/
theorem failure_of_finish {config : Config} {line : Int} {input parsed : String}
    {phrase : Phrase} {e : StageError}
    (h : config.finish line input parsed phrase = .error e) :
    ∃ stage cause, e = config.failure line stage cause ∧
      (stage = .typeChecking ∨ stage = .reducing) := by
  unfold finish at h
  split at h
  · cases h
    exact ⟨_, _, rfl, .inl rfl⟩
  · split at h
    · split at h
      · cases h
        exact ⟨_, _, rfl, .inr rfl⟩
      · cases h
    · cases h

/-- A line that is read goes on to the check and the reduction. -/
theorem process_of_readPhrase {config : Config} {line : Int} {input : String} {phrase : Phrase}
    (hread : config.readPhrase line .tokenizing .parsing input = .ok phrase) :
    config.process line input = config.finish line input phrase.render phrase := by
  unfold process
  simp only [hread, rereadPhrase_eq hread]

/-- A line with a fault fails where it is scanned. -/
theorem process_of_scan {config : Config} {line : Int} {input : String} {e : LexError}
    (hscan : Token.scan input = .error e) :
    config.process line input = .error (config.failure line .tokenizing (.lex e)) := by
  unfold process readPhrase
  rw [hscan]

/-- No failure of a line belongs to the second reading. -/
theorem failure_of_process {config : Config} {line : Int} {input : String} {e : StageError}
    (h : config.process line input = .error e) :
    ∃ stage cause, e = config.failure line stage cause ∧ stage ≠ .reparsing := by
  cases hread : config.readPhrase line .tokenizing .parsing input with
  | error e' =>
    unfold process at h
    rw [hread] at h
    cases h
    obtain ⟨stage, cause, rfl, rfl | rfl⟩ := failure_of_readPhrase hread
    all_goals exact ⟨_, cause, rfl, by decide⟩
  | ok phrase =>
    rw [process_of_readPhrase hread] at h
    obtain ⟨stage, cause, rfl, rfl | rfl⟩ := failure_of_finish h
    all_goals exact ⟨_, cause, rfl, by decide⟩

/-- The second reading never shows: every line has the result or the failure that it has
    without it, and no failure belongs to it. -/
theorem process_eq_processOnce (config : Config) (line : Int) (input : String) :
    config.process line input = config.processOnce line input ∧
      ∀ e, config.process line input = .error e → e.stage ≠ .reparsing := by
  constructor
  · cases hread : config.readPhrase line .tokenizing .parsing input with
    | error e =>
      unfold process processOnce
      rw [hread]
    | ok phrase =>
      rw [process_of_readPhrase hread, processOnce, hread]
  · intro e he
    obtain ⟨stage, cause, rfl, hstage⟩ := failure_of_process he
    exact hstage

/-- The line `\x (λy . . y)` is read twice and then needs more than two visits. -/
theorem process_eq_processOnce_outOfBounds :
    ({ maxSteps := 2 } : Config).process 7 "\\x (λy . . y)" =
        .error ⟨"expression", .reducing, 7, .reduce (.outOfBounds 2)⟩ ∧
      Stage.reducing ≠ .reparsing := by
  have hgap : Token.IsGap [] := by simp [Token.IsGap]
  have hspace : Token.IsGap [' '] := by
    intro c hc
    rw [List.mem_singleton.1 hc]
    decide
  have hdots : Token.Scans ['.', ' ', '.', ' ', 'y', ')']
      [⟨.dot, ""⟩, ⟨.dot, ""⟩, ⟨.lower, "y"⟩, ⟨.rparen, ""⟩] :=
    (Token.Reads.dot hspace (by decide) (by decide)).scans
      ((Token.Reads.dot hspace (by decide) (by decide)).scans
        (.variable (by decide : Token.isVariableName "y" = true) (.cons (by decide +kernel))
          (.symbol (by decide) .nil)))
  have hscans : Token.Scans "\\x (λy . . y)".toList
      [⟨.lambda, "x"⟩, ⟨.lparen, ""⟩, ⟨.lambda, "y"⟩, ⟨.dot, ""⟩, ⟨.dot, ""⟩, ⟨.lower, "y"⟩,
        ⟨.rparen, ""⟩] :=
    (Token.Reads.binder (by decide) hgap (by decide : Token.isBinderName "x" = true)
        (by simp; decide)).scans
      (.blank (by decide) (.symbol (by decide)
        ((Token.Reads.binder (by decide) hgap (by decide : Token.isBinderName "y" = true)
            (by simp; decide)).scans
          (.blank (by decide) hdots))))
  have hderives : Term.Derives .untyped _ _ :=
    .apply (.shortAbs "x" (.absent rfl)
      (.group "" "" (.apply (.abs "y" "" (.absent rfl)
        (.apply (.dot "" (.apply (.var "y" .nil))))))) .nil)
  have hread : ({ maxSteps := 2 } : Config).readPhrase 7 .tokenizing .parsing "\\x (λy . . y)" =
      .ok (.expression (.abs "x" .missing (.abs "y" .missing (.var "y")))) :=
    readPhrase_eq_ok_iff.2 ⟨_, hscans 1, congrArg (Except.map Phrase.expression) hderives.ofTokens_eq⟩
  have hfinish : ({ maxSteps := 2 } : Config).finish 7 "\\x (λy . . y)" "λx.λy.y"
      (.expression (.abs "x" .missing (.abs "y" .missing (.var "y")))) =
      .error ⟨"expression", .reducing, 7, .reduce (.outOfBounds 2)⟩ := rfl
  have h : ({ maxSteps := 2 } : Config).process 7 "\\x (λy . . y)" =
      .error ⟨"expression", .reducing, 7, .reduce (.outOfBounds 2)⟩ := by
    rw [(process_eq_processOnce _ _ _).1, processOnce, hread]
    exact hfinish
  exact ⟨h, (process_eq_processOnce _ 7 _).2 _ h⟩

end Redex.Config
