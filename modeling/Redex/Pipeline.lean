import Redex.Config
import Redex.Phrase
import Redex.Reducer
import Redex.Token.Lexer

/-! # From a line to its result

    A line is scanned, read, written out and read again, checked and reduced.  Reading the
    written text again has to give the same phrase. -/

namespace Redex

open Reduction

/-- The stages a line goes through. -/
inductive Stage where
  | tokenizing
  | parsing
  | reparsing
  | typeChecking
  | reducing
deriving DecidableEq, Repr

/-- The name of a stage in reports. -/
def Stage.name : Stage → String
  | .tokenizing => "tokenizing"
  | .parsing => "parsing"
  | .reparsing => "reparsing"
  | .typeChecking => "type checking"
  | .reducing => "reducing"

/-- Why a stage fails. -/
inductive StageError.Cause where
  | lex (error : LexError)
  | parse (error : ParseError)
  /-- The written text of a phrase gives another phrase when it is read. -/
  | roundTrip (first second : String)
  | naming (error : NamingError)
  | reduce (error : ReduceError)
deriving DecidableEq, Repr

/-- The failure of a line at a stage.  A line number that is not positive means that the
    input did not come from a numbered source. -/
structure StageError where
  construct : String
  stage : Stage
  line : Int
  cause : StageError.Cause
deriving DecidableEq, Repr

namespace StageError

/-- The wording for two texts that should have been the same. -/
def roundTripMessage (first second : String) : String :=
  "'" ++ second ++ "' is not equal to '" ++ first ++ "' after reparse"

/-- The report of a cause. -/
def Cause.message : Cause → String
  | .lex error => error.message
  | .parse error => error.message
  | .roundTrip first second => roundTripMessage first second
  | .naming error => error.message
  | .reduce error => error.message

/-- The wording of a failure. -/
def messageOf (construct stage : String) (line : Int) (cause : String) : String :=
  let place := if line ≤ 0 then "" else " on line " ++ toString line
  "Invalid " ++ construct ++ " [" ++ cause ++ "] caught during " ++ stage ++ place ++ "!"

/-- The report of a failure. -/
def message (error : StageError) : String :=
  messageOf error.construct error.stage.name error.line error.cause.message

end StageError

/-- The result of a line. -/
structure LineResult where
  line : Int
  input : String
  /-- The phrase as it was read. -/
  parsed : String
  /-- The phrase after reduction. -/
  output : String
  stats : Stats := {}
  trace : Option (List Event) := none
deriving DecidableEq, Repr

namespace Config

/-- The reducer that a configuration asks for. -/
def reducer (config : Config) : Reducer :=
  let reducer := ({} : Reducer).withCeiling config.maxSteps
  if 0 < config.trace then reducer.enableTrace config.trace else reducer

/-- The failure of a line. -/
def failure (config : Config) (line : Int) (stage : Stage) (cause : StageError.Cause) :
    StageError :=
  ⟨config.mode.construct, stage, line, cause⟩

/-- Scans and reads a line; a failure belongs to the first stage or to the second. -/
def readPhrase (config : Config) (line : Int) (first second : Stage) (text : String) :
    Except StageError Phrase :=
  match Token.scan text with
  | .error e => .error (config.failure line first (.lex e))
  | .ok tokens =>
    match Phrase.ofTokens config.mode tokens with
    | .error e => .error (config.failure line second (.parse e))
    | .ok phrase => .ok phrase

/-- Reads the written text of a phrase again, and compares. -/
def rereadPhrase (config : Config) (line : Int) (phrase : Phrase) : Except StageError Phrase :=
  match config.readPhrase line .reparsing .reparsing phrase.render with
  | .error e => .error e
  | .ok again =>
    if phrase = again then .ok again
    else .error (config.failure line .reparsing (.roundTrip phrase.render again.render))

/-- Checks and reduces a phrase. -/
def finish (config : Config) (line : Int) (input parsed : String) (phrase : Phrase) :
    Except StageError LineResult :=
  match phrase.check with
  | .error e => .error (config.failure line .typeChecking (.naming e))
  | .ok () =>
    if config.reduce then
      match config.reducer.reduce phrase.term with
      | (.error e, _) => .error (config.failure line .reducing (.reduce e))
      | (.ok normal, reducer) =>
        let output := (phrase.withTerm normal).render
        .ok ⟨line, input, parsed, output, reducer.stats, reducer.trace⟩
    else .ok ⟨line, input, parsed, parsed, {}, none⟩

/-- Takes a line through all stages. -/
def process (config : Config) (line : Int) (input : String) : Except StageError LineResult :=
  match config.readPhrase line .tokenizing .parsing input with
  | .error e => .error e
  | .ok phrase =>
    match config.rereadPhrase line phrase with
    | .error e => .error e
    | .ok again => config.finish line input phrase.render again

end Config

end Redex
