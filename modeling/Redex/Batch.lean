import Redex.Pipeline

/-! # Batches of lines

    A batch is all or nothing: it gives the results of all its lines in order, or the failure
    of the first line that fails.  How many workers share the lines makes no difference. -/

namespace Redex

/-- Why a batch gives no results. -/
inductive BatchError where
  | noInput
  | failed (error : StageError)
  | cancelled
deriving DecidableEq, Repr

/-- The report of an error. -/
def BatchError.message : BatchError → String
  | .noInput => "no input lines"
  | .failed error => error.message
  | .cancelled => "context canceled"

namespace Config

/-- The results of lines numbered from `first` on, up to the first failure. -/
def processFrom (config : Config) (first : Nat) :
    List String → Except StageError (List LineResult)
  | [] => .ok []
  | line :: lines =>
    match config.process first line with
    | .error e => .error e
    | .ok result => (config.processFrom (first + 1) lines).map (result :: ·)

/-- Takes a batch of lines through all stages, unless it is cancelled. -/
def runBatch (config : Config) (lines : List String) (cancelled : Bool) :
    Except BatchError (List LineResult) :=
  if lines.isEmpty then .error .noInput
  else if cancelled then .error .cancelled
  else
    match config.processFrom 1 lines with
    | .error e => .error (.failed e)
    | .ok results => .ok results

end Config

end Redex
