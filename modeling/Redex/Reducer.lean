import Redex.Reduction.Normalization

/-! # Reducers

    A reducer performs reductions and substitutions one after the other.  It keeps a ceiling
    for reductions, the progress of its last reduction and of the substitutions since, and
    optionally a window on the log of conversions: the trace. -/

namespace Redex

open Reduction

/-- The part of a log that a trace shows. -/
structure TraceWindow where
  /-- The number of events before the trace starts. -/
  start : Nat
  /-- The number of events the trace has room for. -/
  capacity : Nat
deriving DecidableEq, Repr

/-- A reducer. -/
structure Reducer where
  /-- The most subterms that one reduction may visit. -/
  ceiling : Nat := 10000
  /-- The last reduction and the substitutions since. -/
  progress : Progress := {}
  /-- The window of the trace, if there is one. -/
  window : Option TraceWindow := none
deriving Inhabited

namespace Reducer

/-- Sets the ceiling.  A ceiling that is not positive is ignored. -/
def withCeiling (r : Reducer) (ceiling : Int) : Reducer :=
  if 0 < ceiling then { r with ceiling := ceiling.toNat } else r

/-- Starts a trace with room for `capacity` events, and for one at least. -/
def enableTrace (r : Reducer) (capacity : Int) : Reducer :=
  { r with window := some ⟨r.progress.log.length, max 1 capacity.toNat⟩ }

/-- Stops tracing. -/
def disableTrace (r : Reducer) : Reducer :=
  { r with window := none }

/-- Brings a term to normal form.  Statistics, trace and fresh names start afresh. -/
def reduce (r : Reducer) (t : Term) : Except ReduceError Term × Reducer :=
  let (result, progress) := normalize r.ceiling t
  (result, { r with progress, window := r.window.map ({ · with start := 0 }) })

/-- Replaces the free occurrences of `name` in a term by `value`.  Fresh names differ from
    every name of the two terms and of those of earlier calls since the last
    reduction. -/
def substitute (r : Reducer) (t : Term) (name : String) (value : Term) : Term × Reducer :=
  let supply := (r.progress.supply.reserve t).reserve value
  let (result, progress) := t.substitute name value value.free { r.progress with supply }
  (result, { r with progress })

/-- The statistics of the last reduction and the substitutions since. -/
def stats (r : Reducer) : Stats :=
  r.progress.stats

/-- The events of the trace in order, unless tracing is off. -/
def trace (r : Reducer) : Option (List Event) :=
  r.window.map fun window => (r.progress.log.reverse.drop window.start).take window.capacity

end Reducer

end Redex
