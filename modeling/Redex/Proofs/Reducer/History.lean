import Redex.Proofs.Reducer.FreshNames
import Redex.Proofs.Reducer.Registers
import Redex.Proofs.Reduction.Rules

/-! # Reductions and the calls before them

    A reducer may be called in any order: reductions that return or fail, substitutions, and
    the trace turned on and off in between.  A reduction depends on none of this.  It depends on
    the ceiling and on its term alone, and so do its events.

    Of the calls before it, a reduction only shows how much room they have left for the trace:
    the trace shows the first of its events, as many as there is room for
    (`reduce_behind_calls`).

    For a reducer with a log this is plain.  For a machine with registers it is not: the counters
    are three, and the buffer still holds what earlier calls have left in it.  So the machine is
    taken through the same calls (`Machine.Holds.call`), and found to show the same. -/

namespace Redex

open Reduction

/-! ### Calls -/

/-- A call of a reducer. -/
inductive Call where
  | reduce (t : Term)
  | substitute (replacement : Replacement)
  | enableTrace (capacity : Int)
  | disableTrace

namespace Call

/-- The room for events that a call leaves in the trace, if tracing is on behind it.  There is
    room for one event at least. -/
def room (before : Option Nat) : Call → Option Nat
  | .enableTrace capacity => some (if capacity ≤ 0 then 1 else capacity.toNat)
  | .disableTrace => none
  | .reduce _ => before
  | .substitute _ => before

/-- The room for events behind a sequence of calls. -/
def roomBehind (calls : List Call) : Option Nat :=
  calls.foldl room none

end Call

namespace Reducer

/-- A reducer behind a call, whether that has returned or failed. -/
def call (r : Reducer) : Call → Reducer
  | .reduce t => (r.reduce t).2
  | .substitute replacement => (r.replace replacement).2
  | .enableTrace capacity => r.enableTrace capacity
  | .disableTrace => r.disableTrace

/-- A new reducer with a ceiling, behind a sequence of calls. -/
def behind (ceiling : Int) (calls : List Call) : Reducer :=
  calls.foldl call (({} : Reducer).withCeiling ceiling)

/-- The room for events in the trace, if tracing is on. -/
def room (r : Reducer) : Option Nat :=
  r.window.map (·.capacity)

/-! ### What a call leaves to the next -/

theorem call_ceiling (r : Reducer) (c : Call) : (r.call c).ceiling = r.ceiling := by
  cases c <;> rfl

theorem call_room (r : Reducer) (c : Call) : (r.call c).room = c.room r.room := by
  cases c with
  | reduce t =>
    show (r.window.map _).map _ = r.window.map _
    rw [Option.map_map]
    rfl
  | substitute replacement => rfl
  | enableTrace capacity =>
    show some (max 1 capacity.toNat) = some (if capacity ≤ 0 then 1 else capacity.toNat)
    congr 1
    split <;> omega
  | disableTrace => rfl

theorem behind_ceiling (ceiling : Int) (calls : List Call) :
    (behind ceiling calls).ceiling = (({} : Reducer).withCeiling ceiling).ceiling := by
  unfold behind
  generalize ({} : Reducer).withCeiling ceiling = r
  induction calls generalizing r with
  | nil => rfl
  | cons c calls ih =>
    rw [List.foldl_cons, ih, call_ceiling]

theorem behind_room (ceiling : Int) (calls : List Call) :
    (behind ceiling calls).room = Call.roomBehind calls := by
  have hnew : (({} : Reducer).withCeiling ceiling).room = none := by
    unfold withCeiling
    split <;> rfl
  unfold behind Call.roomBehind
  rw [← hnew]
  generalize ({} : Reducer).withCeiling ceiling = r
  induction calls generalizing r with
  | nil => rfl
  | cons c calls ih =>
    rw [List.foldl_cons, List.foldl_cons, ih, call_room]

end Reducer

/-! ### Machines -/

/-- A reducer that keeps registers instead of a log. -/
structure Machine where
  regs : Registers := {}
  /-- Whether there has been a reduction or a substitution. -/
  started : Bool := false

namespace Machine

/-- Sets the ceiling.  A ceiling that is not positive is ignored. -/
def withCeiling (machine : Machine) (ceiling : Int) : Machine :=
  if 0 < ceiling then { machine with regs := { machine.regs with ceiling := ceiling.toNat } }
  else machine

def enableTrace (machine : Machine) (capacity : Int) : Machine :=
  { machine with regs := { machine.regs with buffer := .enabled capacity } }

def disableTrace (machine : Machine) : Machine :=
  { machine with regs := { machine.regs with buffer := machine.regs.buffer.disable } }

/-- Brings a term to normal form. -/
def reduce (machine : Machine) (t : Term) : Except ReduceError Term × Machine :=
  let (result, regs) := machine.regs.reduce t
  (result, ⟨regs, true⟩)

/-- Replaces the free occurrences of `name` in a term by `value`.  The first call of all starts
    afresh for the term. -/
def substitute (machine : Machine) (t : Term) (name : String) (value : Term) : Term × Machine :=
  let start := if machine.started then machine.regs else machine.regs.reset t
  let (result, regs) := start.substitute t name value
  (result, ⟨regs, true⟩)

def stats (machine : Machine) : Stats :=
  machine.regs.stats

/-- The events in the buffer, unless tracing is off. -/
def snapshot (machine : Machine) : Option (List (Option Event)) :=
  machine.regs.buffer.snapshot

/-- A machine behind a call, whether that has returned or failed. -/
def call (machine : Machine) : Call → Machine
  | .reduce t => (machine.reduce t).2
  | .substitute ⟨t, name, value⟩ => (machine.substitute t name value).2
  | .enableTrace capacity => machine.enableTrace capacity
  | .disableTrace => machine.disableTrace

/-- A new machine with a ceiling, behind a sequence of calls. -/
def behind (ceiling : Int) (calls : List Call) : Machine :=
  calls.foldl call (({} : Machine).withCeiling ceiling)

/-- The registers of the machine hold what a reducer does, and there is nothing in its log before
    the first reduction or substitution. -/
structure Holds (machine : Machine) (r : Reducer) : Prop where
  follows : machine.regs.Follows r.ceiling r.window r.progress
  unused : machine.started = false → r.progress = {}

variable {machine : Machine} {r : Reducer}

theorem Holds.reduce (h : machine.Holds r) (t : Term) :
    (machine.reduce t).1 = (r.reduce t).1 ∧ (machine.reduce t).2.Holds (r.reduce t).2 := by
  obtain ⟨hresult, hfollows⟩ := h.follows.reduce t
  exact ⟨hresult, hfollows, fun hstarted => by cases hstarted⟩

theorem Holds.substitute (h : machine.Holds r) (t : Term) (name : String) (value : Term) :
    (machine.substitute t name value).1 = (r.substitute t name value).1 ∧
      (machine.substitute t name value).2.Holds (r.substitute t name value).2 := by
  unfold Machine.substitute
  cases hstarted : machine.started with
  | true =>
    obtain ⟨hresult, hfollows⟩ := h.follows.substitute t name value
    exact ⟨hresult, hfollows, fun hstarted => by cases hstarted⟩
  | false =>
    have hprogress := h.unused hstarted
    have hbuffer := h.follows.buffer
    have hreset := h.follows.reset t
    rw [hprogress] at hbuffer
    rw [hbuffer.map_start_eq] at hreset
    -- the fresh start has put the names of the term into use, so that they are not new
    have hstart := (hreset.register_of_namedIn (Supply.namedIn_ofTerm t)).register value
    have ht := Supply.namedIn_reserve_of_namedIn (Supply.namedIn_ofTerm t) value
    obtain ⟨hresult, hfollows⟩ := hstart.replaceIn ht name value value.free
    unfold Reducer.substitute
    rw [hprogress]
    exact ⟨hresult, hfollows, fun hstarted => by cases hstarted⟩

theorem Holds.call (h : machine.Holds r) (c : Call) : (machine.call c).Holds (r.call c) := by
  cases c with
  | reduce t => exact (h.reduce t).2
  | substitute replacement => exact (h.substitute _ _ _).2
  | enableTrace capacity =>
    exact ⟨{ h.follows with buffer := TraceBuffer.shows_enabled capacity _ }, h.unused⟩
  | disableTrace => exact ⟨{ h.follows with buffer := .off rfl }, h.unused⟩

theorem new_holds (ceiling : Int) :
    (({} : Machine).withCeiling ceiling).Holds (({} : Reducer).withCeiling ceiling) := by
  unfold withCeiling Reducer.withCeiling
  split <;> exact ⟨⟨rfl, rfl, ⟨rfl, .rfl⟩, rfl, rfl, .off rfl⟩, fun _ => rfl⟩

/-- Behind any calls, a machine holds what a reducer does. -/
theorem behind_holds (ceiling : Int) (calls : List Call) :
    (behind ceiling calls).Holds (Reducer.behind ceiling calls) := by
  have hnew := new_holds ceiling
  unfold behind Reducer.behind
  generalize ({} : Machine).withCeiling ceiling = machine at hnew ⊢
  generalize ({} : Reducer).withCeiling ceiling = r at hnew ⊢
  induction calls generalizing machine r with
  | nil => exact hnew
  | cons c calls ih =>
    rw [List.foldl_cons, List.foldl_cons]
    exact ih _ _ (hnew.call c)

theorem Holds.snapshot_eq (h : machine.Holds r) :
    machine.snapshot = r.trace.map (·.map some) := by
  unfold snapshot Reducer.trace
  rw [h.follows.buffer.snapshot_eq, Option.map_map]
  rfl

end Machine

/-! ### The events of a reduction -/

namespace Reduction

/-- By the rules, the reduction of a term under a ceiling has these events, this result and this
    number of visits. -/
def Rewrites (ceiling : Nat) (t : Term) (events : List Event)
    (result : Except ReduceError Term) (steps : Nat) : Prop :=
  ∃ supply, Runs ceiling t 0 (.ofTerm t) events result steps supply

theorem rewrites_iff {ceiling : Nat} {t : Term} {events : List Event}
    {result : Except ReduceError Term} {steps : Nat} :
    Rewrites ceiling t events result steps ↔
      events = (normalize ceiling t).2.log.reverse ∧ result = (normalize ceiling t).1 ∧
        steps = (normalize ceiling t).2.steps := by
  constructor
  · rintro ⟨supply, hruns⟩
    obtain ⟨hevents, hresult, hsteps, -⟩ := hruns.unique (normalize_runs ceiling t)
    exact ⟨hevents, hresult, hsteps⟩
  · rintro ⟨rfl, rfl, rfl⟩
    exact ⟨_, normalize_runs ceiling t⟩

/-- Every event is a contraction or a renaming. -/
theorem countP_beta_add_countP_alpha (events : List Event) :
    events.countP (·.rule.isBeta) + events.countP (·.rule.isAlpha) = events.length := by
  rw [List.length_eq_countP_add_countP (·.rule.isBeta)]
  simp [Rule.isAlpha]

theorem Progress.stats_eq (progress : Progress) :
    progress.stats = ⟨progress.steps, progress.log.reverse.countP (·.rule.isBeta),
      progress.log.reverse.countP (·.rule.isAlpha)⟩ := by
  rw [List.countP_reverse, List.countP_reverse]
  rfl

end Reduction

namespace Reducer

/-- Of the calls before it, the result and the statistics of a reduction show nothing. -/
theorem reduce_behind (ceiling : Int) (calls : List Call) (t : Term) :
    ((behind ceiling calls).reduce t).1 =
        (normalize (({} : Reducer).withCeiling ceiling).ceiling t).1 ∧
      ((behind ceiling calls).reduce t).2.stats =
        (normalize (({} : Reducer).withCeiling ceiling).ceiling t).2.stats := by
  rw [← behind_ceiling ceiling calls]
  exact ⟨rfl, rfl⟩

/-- The trace behind a reduction shows the first of its events, as many as there is room for. -/
theorem reduce_behind_trace (ceiling : Int) (calls : List Call) (t : Term) :
    ((behind ceiling calls).reduce t).2.trace = (Call.roomBehind calls).map fun room =>
      (normalize (({} : Reducer).withCeiling ceiling).ceiling t).2.log.reverse.take room := by
  rw [← behind_ceiling ceiling calls, ← behind_room ceiling calls]
  show ((behind ceiling calls).window.map _).map _ = ((behind ceiling calls).window.map _).map _
  rw [Option.map_map, Option.map_map]
  rfl

end Reducer

namespace Machine

/-- Behind any two sequences of calls, machines of one ceiling give the same result and the same
    statistics.  Result, visits and events are those that the rules leave no choice about.  The
    counters have counted the contractions and the renamings among the events, which are made at
    numbers of visits that never go down and never pass the visits of the run.  The buffer, where
    the calls have left it on, shows the first events, as many as the calls have left room for,
    whatever it was used for before.  A reducer with a log, behind the same calls, shows the
    same. -/
theorem reduce_behind_calls (ceiling : Int) (calls calls' : List Call) (t : Term) :
    ((behind ceiling calls).reduce t).1 = ((behind ceiling calls').reduce t).1 ∧
    ((behind ceiling calls).reduce t).2.stats = ((behind ceiling calls').reduce t).2.stats ∧
    (∃ events,
      (∀ other result steps,
        Rewrites (({} : Machine).withCeiling ceiling).regs.ceiling t other result steps ↔
          other = events ∧ result = ((behind ceiling calls).reduce t).1 ∧
            steps = ((behind ceiling calls).reduce t).2.stats.steps) ∧
      events.countP (·.rule.isBeta) = ((behind ceiling calls).reduce t).2.stats.beta ∧
      events.countP (·.rule.isAlpha) = ((behind ceiling calls).reduce t).2.stats.alpha ∧
      events.Pairwise (·.step ≤ ·.step) ∧
      (∀ event ∈ events, event.step ≤ ((behind ceiling calls).reduce t).2.stats.steps) ∧
      ((behind ceiling calls).reduce t).2.snapshot = (Call.roomBehind calls).map fun room =>
        (events.take (min room (((behind ceiling calls).reduce t).2.stats.beta +
          ((behind ceiling calls).reduce t).2.stats.alpha))).map some) ∧
    ((Reducer.behind ceiling calls).reduce t).1 = ((behind ceiling calls).reduce t).1 ∧
    ((Reducer.behind ceiling calls).reduce t).2.stats =
      ((behind ceiling calls).reduce t).2.stats ∧
    ((Reducer.behind ceiling calls).reduce t).2.trace.map (·.map some) =
      ((behind ceiling calls).reduce t).2.snapshot := by
  obtain ⟨hresult, hholds⟩ := (behind_holds ceiling calls).reduce t
  obtain ⟨hresult', hholds'⟩ := (behind_holds ceiling calls').reduce t
  obtain ⟨hrun, hcounted⟩ := Reducer.reduce_behind ceiling calls t
  obtain ⟨hrun', hcounted'⟩ := Reducer.reduce_behind ceiling calls' t
  have hstats : ((behind ceiling calls).reduce t).2.stats = _ := hholds.follows.stats.trans hcounted
  have hstats' : ((behind ceiling calls').reduce t).2.stats = _ :=
    hholds'.follows.stats.trans hcounted'
  have hruns := normalize_runs (({} : Reducer).withCeiling ceiling).ceiling t
  refine ⟨?_, hstats.trans hstats'.symm, ⟨_, ?_, ?_, ?_, hruns.inOrder.sorted, ?_, ?_⟩,
    hresult.symm, hholds.follows.stats.symm, hholds.snapshot_eq.symm⟩
  · rw [hresult, hresult', hrun, hrun']
  · intro other result steps
    rw [hresult, hrun, hstats, (new_holds ceiling).follows.ceiling]
    exact rewrites_iff
  · rw [hstats, Progress.stats_eq]
  · rw [hstats, Progress.stats_eq]
  · rw [hstats]
    exact hruns.inOrder.le_high
  · rw [hholds.snapshot_eq, Reducer.reduce_behind_trace, Option.map_map, hstats, Progress.stats_eq,
      countP_beta_add_countP_alpha]
    congr 1
    funext room
    exact congrArg (List.map some) List.take_eq_take_min

/-- A buffer with room for three events was filled by a reduction of `(λx.x x) (λx.x x)` that has
    failed.  The reduction of `(λx.λy.x) y` has two events, both made at the fourth visit.  These
    are shown, and not what is left in the third place.  Where the buffer was made behind the
    failed reduction, for less than one event, the first is shown. -/
theorem reduce_behind_calls_two_events :
    let twice : Term := .abs "x" .missing (.app (.var "x") (.var "x"))
    let t : Term := .app (.abs "x" .missing (.abs "y" .missing (.var "x"))) (.var "y")
    let machine := behind 20 [.enableTrace 3, .reduce (.app twice twice)]
    let machine' := behind 20 [.reduce (.app twice twice), .enableTrace (-3)]
    (machine.reduce t).1 = .ok (.abs "y1" .missing (.var "y")) ∧
    (machine'.reduce t).1 = .ok (.abs "y1" .missing (.var "y")) ∧
    (machine.reduce t).2.stats = ⟨6, 1, 1⟩ ∧ (machine'.reduce t).2.stats = ⟨6, 1, 1⟩ ∧
    (machine.reduce t).2.snapshot =
      some [some ⟨4, .beta "x"⟩, some ⟨4, .alpha "y" "y1"⟩] ∧
    (machine'.reduce t).2.snapshot = some [some ⟨4, .beta "x"⟩] := by
  intro twice t machine machine'
  obtain ⟨hsame, hstats, -, hresult, hcounted, hsnapshot⟩ := reduce_behind_calls 20
    [.enableTrace 3, .reduce (.app twice twice)] [.reduce (.app twice twice), .enableTrace (-3)] t
  obtain ⟨-, -, -, -, -, hsnapshot'⟩ := reduce_behind_calls 20
    [.reduce (.app twice twice), .enableTrace (-3)] [] t
  have hok : (machine.reduce t).1 = .ok (.abs "y1" .missing (.var "y")) :=
    hresult.symm.trans (by decide +kernel)
  have hcount : (machine.reduce t).2.stats = ⟨6, 1, 1⟩ := hcounted.symm.trans (by decide +kernel)
  exact ⟨hok, hsame.symm.trans hok, hcount, hstats.symm.trans hcount,
    hsnapshot.symm.trans (by decide +kernel), hsnapshot'.symm.trans (by decide +kernel)⟩

end Machine

end Redex
