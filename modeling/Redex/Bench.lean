import Redex.Pipeline

/-! # Timing the stages of a line

    A line is timed only if it passes all stages.  What a clock measures is any number of
    `Config.timedRun`s. -/

namespace Redex

/-- Why a line is not timed. -/
inductive BenchError where
  /-- The number of iterations is not positive. -/
  | badCount (iterations : Int)
  | failed (error : StageError)
deriving DecidableEq, Repr

/-- The report of an error. -/
def BenchError.message : BenchError → String
  | .badCount iterations => "bench: iterations must be positive, got " ++ toString iterations
  | .failed error => error.message

/-- What is timed. -/
inductive Timing where
  | tokenize
  | parse
  | typeCheck
  | reduce
  | combined
deriving DecidableEq, Repr

/-- The label of a timing. -/
def Timing.label : Timing → String
  | .tokenize => "Tokenize"
  | .parse => "Parse"
  | .typeCheck => "TypeCheck"
  | .reduce => "Reduce"
  | .combined => "Combined"

/-- What one run of a timing comes to. -/
inductive Timing.Outcome where
  | scanned (result : Except LexError (List Token))
  | read (result : Except ParseError Phrase)
  | checked (result : Except NamingError Unit)
  | reduced (result : Except Reduction.ReduceError Term)
  | processed (result : Except StageError LineResult)

/-- Whether a run has succeeded. -/
def Timing.Outcome.passed : Outcome → Bool
  | .scanned result => result.toBool
  | .read result => result.toBool
  | .checked result => result.toBool
  | .reduced result => result.toBool
  | .processed result => result.toBool

/-- A line to be timed. -/
structure Bench where
  input : String
  iterations : Int
deriving DecidableEq, Repr

namespace Bench

/-- The mean of a duration over a number of iterations, in whole nanoseconds; nothing took
    time over no iterations. -/
def perOp (iterations duration : Int64) : Int64 :=
  duration / iterations

end Bench

namespace Config

/-- Checks the number of iterations and takes the line through all stages once. -/
def bench (config : Config) (input : String) (iterations : Int) : Except BenchError Bench :=
  if iterations ≤ 0 then .error (.badCount iterations)
  else
    match config.process 0 input with
    | .error e => .error (.failed e)
    | .ok _ => .ok ⟨input, iterations⟩

/-- One run of what a timing is about: what it comes to, and the reducer behind it.  The tokens
    and the phrase are those of the line.  Successive runs share one reducer. -/
def timedRun (config : Config) (input : String) (tokens : List Token) (phrase : Phrase)
    (reducer : Reducer) : Timing → Timing.Outcome × Reducer
  | .tokenize => (.scanned (Token.scan input), reducer)
  | .parse => (.read (Phrase.ofTokens config.mode tokens), reducer)
  | .typeCheck => (.checked phrase.check, reducer)
  | .reduce =>
    let (result, reducer) := reducer.reduce phrase.term
    (.reduced result, reducer)
  | .combined => (.processed (config.process 0 input), reducer)

/-- The timings of a line in the order of its stages. -/
def timings (config : Config) : List Timing :=
  [.tokenize, .parse] ++ (if config.mode.isTyped then [.typeCheck] else [])
    ++ (if config.reduce then [.reduce] else []) ++ [.combined]

end Config

end Redex
