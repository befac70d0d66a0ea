import Redex.Reduction.Substitution

/-! # Reduction to normal form

    `normalize` visits a term from the outside.  The function of an application is brought
    to normal form first; if that is an abstraction, the redex is contracted and the result
    visited, and otherwise the argument is brought to normal form.  The number of visits
    has a ceiling. -/

namespace Redex.Reduction

/-- Why a reduction stops without a normal form. -/
inductive ReduceError where
  /-- More subterms had to be visited than the ceiling allows. -/
  | outOfBounds (limit : Nat)
  /-- A contraction was asked for whose function is no abstraction. -/
  | notAnAbstraction (limit : Nat)
deriving DecidableEq, Repr

namespace ReduceError

/-- The name of an error in reports. -/
def name : ReduceError → String
  | .outOfBounds _ => "ReductionOutOfBounds"
  | .notAnAbstraction _ => "BetaReductionOnNonAbstraction"

/-- The ceiling that was in force. -/
def limit : ReduceError → Nat
  | .outOfBounds limit => limit
  | .notAnAbstraction limit => limit

/-- The wording for a ceiling that more visits were needed than. -/
def outOfBoundsMessage (limit : Int) : String :=
  "Reduction out of bounds, more than " ++ toString limit ++ " reduction steps"

/-- The report of an error. -/
def message : ReduceError → String
  | .outOfBounds limit => outOfBoundsMessage limit
  | .notAnAbstraction _ => "Beta reduction on non abstraction"

end ReduceError

/-- Contracts the application of an abstraction. -/
def contract (ceiling : Nat) (fn arg : Term) (progress : Progress) :
    Except ReduceError Term × Progress :=
  match fn with
  | .abs binder _ body =>
    let (t, progress) := body.substitute binder arg arg.free (progress.record (.beta binder))
    (.ok t, progress)
  | _ => (.error (.notAnAbstraction ceiling), progress)

/-- Visits a term and the subterms and contracta below it, at most `depth` below one
    another.  A depth of `ceiling` is never exhausted before the ceiling: each level has
    cost a visit. -/
def visit (ceiling : Nat) : Nat → Term → Progress → Except ReduceError Term × Progress
  | 0, _, progress => (.error (.outOfBounds ceiling), progress.tick)
  | depth + 1, t, progress =>
    let progress := progress.tick
    if ceiling < progress.steps then (.error (.outOfBounds ceiling), progress)
    else
      match t with
      | .missing => (.ok .missing, progress)
      | .var x => (.ok (.var x), progress)
      | .abs binder ty body =>
        match visit ceiling depth body progress with
        | (.error e, progress) => (.error e, progress)
        | (.ok body, progress) => (.ok (.abs binder ty body), progress)
      | .app fn arg =>
        match visit ceiling depth fn progress with
        | (.error e, progress) => (.error e, progress)
        | (.ok fn, progress) =>
          if fn.isAbs then
            match contract ceiling fn arg progress with
            | (.error e, progress) => (.error e, progress)
            | (.ok contractum, progress) => visit ceiling depth contractum progress
          else
            match visit ceiling depth arg progress with
            | (.error e, progress) => (.error e, progress)
            | (.ok arg, progress) => (.ok (.app fn arg), progress)

/-- Brings a term to normal form within a ceiling on the number of visits. -/
def normalize (ceiling : Nat) (t : Term) : Except ReduceError Term × Progress :=
  visit ceiling ceiling t (.ofTerm t)

end Redex.Reduction
