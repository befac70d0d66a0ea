import Redex.Mode

/-! # The configuration of a run -/

namespace Redex

/-- How lines are read and reduced. -/
structure Config where
  mode : Mode := .untyped
  /-- Whether expressions are reduced or only read. -/
  reduce : Bool := true
  /-- The ceiling on the number of subterms that a reduction visits. -/
  maxSteps : Int := 10000
  /-- The number of workers of a batch; one for each processor if absent. -/
  workers : Option Int := none
  /-- The number of events in the trace of a line; no trace if not positive. -/
  trace : Int := 0
  /-- The file that keeps the history of interactive sessions. -/
  history : String := ".golambda_history"
deriving DecidableEq, Repr

namespace Config

/-- A setting out of its range. -/
inductive Issue where
  | maxSteps (value : Int)
  | workers (value : Int)
  | trace (value : Int)
  | mode (code : Int)
deriving DecidableEq, Repr

/-- The report of a setting out of its range. -/
def Issue.message : Issue → String
  | .maxSteps value => "max_steps must be positive, got " ++ toString value
  | .workers value => "workers must be positive, got " ++ toString value
  | .trace value => "trace must not be negative, got " ++ toString value
  | .mode code => "unknown mode " ++ toString code

/-- The report of several settings out of their range. -/
def issuesMessage (issues : List String) : String :=
  if issues.isEmpty then "config: invalid configuration"
  else "config validation failed:" ++ String.join (issues.map ("\n- " ++ ·))

/-- All settings out of their range, in a fixed order. -/
def issues (config : Config) : List Issue :=
  (if config.maxSteps ≤ 0 then [.maxSteps config.maxSteps] else [])
    ++ (match config.workers with
      | some workers => if workers ≤ 0 then [.workers workers] else []
      | none => [])
    ++ (if config.trace < 0 then [.trace config.trace] else [])
    ++ (match config.mode with
      | .unknown code => [.mode code]
      | _ => [])

end Config

end Redex
