import Redex.Reduction.Supply

/-! # The progress of a reduction

    What a reduction carries along: the number of subterms visited, the supply of fresh
    names, and a log of the conversions made. -/

namespace Redex.Reduction

/-- A conversion of a term. -/
inductive Rule where
  /-- The contraction of a redex, by the name of its binder. -/
  | beta (binder : String)
  /-- The renaming of a binder. -/
  | alpha (binder fresh : String)
deriving DecidableEq, Repr

/-- A conversion together with the number of subterms visited before it. -/
structure Event where
  step : Nat
  rule : Rule
deriving DecidableEq, Repr

namespace Rule

def isBeta : Rule → Bool
  | .beta _ => true
  | .alpha _ _ => false

def isAlpha (rule : Rule) : Bool :=
  !rule.isBeta

/-- A line of a trace: the step and the conversion made there. -/
def describeAt (step : Int) : Rule → String
  | .beta binder => "#" ++ toString step ++ " beta " ++ binder
  | .alpha binder fresh => "#" ++ toString step ++ " alpha " ++ binder ++ " -> " ++ fresh

end Rule

/-- The line of a trace for an event. -/
def Event.describe (event : Event) : String :=
  event.rule.describeAt event.step

/-- The statistics of a reduction. -/
structure Stats where
  /-- The number of subterms visited. -/
  steps : Nat := 0
  /-- The number of redexes contracted. -/
  beta : Nat := 0
  /-- The number of binders renamed. -/
  alpha : Nat := 0
deriving DecidableEq, Repr

/-- How far a reduction has come. -/
structure Progress where
  /-- The number of subterms visited. -/
  steps : Nat := 0
  /-- Where fresh names come from. -/
  supply : Supply := {}
  /-- The conversions made, the latest first. -/
  log : List Event := []
deriving Inhabited

namespace Progress

/-- Where the reduction of a term starts. -/
def ofTerm (t : Term) : Progress :=
  { supply := .ofTerm t }

/-- Counts one more subterm. -/
def tick (progress : Progress) : Progress :=
  { progress with steps := progress.steps + 1 }

/-- Logs a conversion. -/
def record (progress : Progress) (rule : Rule) : Progress :=
  { progress with log := ⟨progress.steps, rule⟩ :: progress.log }

/-- Takes a fresh name for a binder and logs the renaming. -/
def renameBinder (progress : Progress) (binder : String) : String × Progress :=
  let (fresh, supply) := progress.supply.fresh binder
  (fresh, { progress with supply }.record (.alpha binder fresh))

/-- The statistics up to here. -/
def stats (progress : Progress) : Stats :=
  { steps := progress.steps
    beta := progress.log.countP (·.rule.isBeta)
    alpha := progress.log.countP (·.rule.isAlpha) }

end Progress

end Redex.Reduction
