import Mathlib.Algebra.GroupWithZero.Nat
import Redex.Batch

/-! # A pool of workers

    A batch is shared by workers that run at the same time.  A dispatcher hands the lines out in
    order, one at a time and only to a worker that is free to take it.  A line that fails stops
    the dispatcher; so does the batch being interrupted from outside.  When no more lines are
    handed out and every worker has left, the dispatcher looks for the first failure.

    A step of the pool is a step of one participant, so the reachable pools are those of every
    schedule.  No schedule is stuck before the batch has returned, and none is longer than a
    bound that depends on the number of lines and workers. -/

namespace Redex

/-! ### State -/

/-- What a worker is doing. -/
inductive Worker where
  /-- Free to take a line. -/
  | idle
  /-- Processing the line with this index. -/
  | running (index : Nat)
  /-- Has recorded a failure, and is about to stop the dispatcher. -/
  | failing
  /-- Has left, since there are no more lines to take. -/
  | exited
deriving DecidableEq

/-- The state of a worker that has recorded an answer. -/
def Worker.after : Except StageError LineResult → Worker
  | .ok _ => .idle
  | .error _ => .failing

/-- How many steps a worker may still take without taking another line. -/
def Worker.rest : Worker → Nat
  | .running _ => 3
  | .failing => 2
  | .idle => 1
  | .exited => 0

namespace Pool

/-- What a batch returns.  The results are an array with a place for each line; a place that
    was never filled would show. -/
abbrev Outcome := Except BatchError (List (Option LineResult))

/-- What the dispatcher is doing. -/
inductive Phase where
  /-- Handing out lines. -/
  | offering
  /-- Waiting for the workers to leave. -/
  | waiting
  /-- Looking for the first failure, from the line with this index on. -/
  | scanning (index : Nat)
  | returned (outcome : Outcome)

end Pool

/-- The state of a batch under way. -/
structure Pool where
  phase : Pool.Phase
  /-- The number of lines handed out. -/
  handed : Nat
  workers : List Worker
  /-- The answers recorded so far, by the index of the line. -/
  slots : Nat → Option (Except StageError LineResult)
  /-- Whether the dispatcher has been told to stop. -/
  stopped : Bool
  /-- Whether the batch has been interrupted from outside. -/
  interrupted : Bool

/-- The number of workers for a batch: as configured, but at most one for each line, and at
    least one. -/
def Config.poolSize (config : Config) (processors : Nat) (lines : List String) : Nat :=
  (max 1 (min (config.workers.getD processors) lines.length)).toNat

theorem Config.poolSize_pos (config : Config) (processors : Nat) (lines : List String) :
    0 < config.poolSize processors lines := by
  unfold poolSize
  omega

namespace Pool

/-- A batch before its first step. -/
def start (size : Nat) : Pool where
  phase := .offering
  handed := 0
  workers := List.replicate size .idle
  slots := fun _ => none
  stopped := false
  interrupted := false

/-- The array of results. -/
def results (pool : Pool) (count : Nat) : List (Option LineResult) :=
  (List.range count).map fun i => (pool.slots i).bind Except.toOption

/-- Records the answer to a line. -/
def record (pool : Pool) (index : Nat) (answer : Except StageError LineResult) : Pool :=
  { pool with slots := fun i => if i = index then some answer else pool.slots i }

/-! ### Steps -/

/-- A step of one participant of a batch. -/
inductive Step (config : Config) (lines : List String) : Pool → Pool → Prop where
  /-- The next line goes to an idle worker.  This may happen even when the dispatcher has
      already been told to stop. -/
  | handOut {pool : Pool} (before after : List Worker) (hphase : pool.phase = .offering)
      (hmore : pool.handed < lines.length) (hidle : pool.workers = before ++ .idle :: after) :
      Step config lines pool
        { pool with
          handed := pool.handed + 1
          workers := before ++ .running pool.handed :: after }
  /-- A worker records the answer to its line. -/
  | answer {pool : Pool} {index : Nat} {line : String} {answer : Except StageError LineResult}
      (before after : List Worker)
      (hrunning : pool.workers = before ++ .running index :: after)
      (hfound : lines[index]? = some line)
      (hprocessed : config.process (index + 1 : Nat) line = answer) :
      Step config lines pool
        { pool.record index answer with workers := before ++ .after answer :: after }
  /-- A worker whose line failed tells the dispatcher to stop. -/
  | stop {pool : Pool} (before after : List Worker)
      (hfailing : pool.workers = before ++ .failing :: after) :
      Step config lines pool { pool with stopped := true, workers := before ++ .idle :: after }
  /-- The batch is interrupted from outside. -/
  | interrupt {pool : Pool} (hrunning : pool.interrupted = false) :
      Step config lines pool { pool with interrupted := true }
  /-- The interruption reaches the dispatcher. -/
  | propagate {pool : Pool} (hinterrupted : pool.interrupted = true)
      (hrunning : pool.stopped = false) :
      Step config lines pool { pool with stopped := true }
  /-- The dispatcher stops handing out lines. -/
  | close {pool : Pool} (hphase : pool.phase = .offering)
      (hdone : pool.handed = lines.length ∨ pool.stopped = true) :
      Step config lines pool { pool with phase := .waiting }
  /-- An idle worker leaves, since there is nothing left to take. -/
  | exit {pool : Pool} (before after : List Worker) (hclosed : pool.phase ≠ .offering)
      (hidle : pool.workers = before ++ .idle :: after) :
      Step config lines pool { pool with workers := before ++ .exited :: after }
  /-- The dispatcher starts to look for failures when every worker has left. -/
  | join {pool : Pool} (hphase : pool.phase = .waiting)
      (hexited : ∀ worker ∈ pool.workers, worker = .exited) :
      Step config lines pool { pool with phase := .scanning 0 }
  /-- A line without a failure is passed over. -/
  | skip {pool : Pool} {index : Nat} (hphase : pool.phase = .scanning index)
      (hmore : index < lines.length) (hfine : ∀ e, pool.slots index ≠ some (.error e)) :
      Step config lines pool { pool with phase := .scanning (index + 1) }
  /-- The first failure is returned. -/
  | fail {pool : Pool} {index : Nat} {e : StageError} (hphase : pool.phase = .scanning index)
      (hmore : index < lines.length) (hfailed : pool.slots index = some (.error e)) :
      Step config lines pool { pool with phase := .returned (.error (.failed e)) }
  /-- Without a failure, the array of results is returned, unless the batch has been
      interrupted. -/
  | finish {pool : Pool} (hphase : pool.phase = .scanning lines.length) :
      Step config lines pool
        { pool with
          phase := .returned
            (if pool.interrupted then .error .cancelled else .ok (pool.results lines.length)) }

/-- A pool can be reached by a schedule of so many steps. -/
inductive Schedule (config : Config) (processors : Nat) (lines : List String) :
    Nat → Pool → Prop where
  | start : Schedule config processors lines 0 (.start (config.poolSize processors lines))
  | step {count : Nat} {pool next : Pool} (hreached : Schedule config processors lines count pool)
      (hstep : Step config lines pool next) : Schedule config processors lines (count + 1) next

variable {config : Config} {processors : Nat} {lines : List String}

/-! ### Every schedule ends -/

/-- How many steps a dispatcher may still take, counting for each line it may hand out the
    steps that the line gives a worker. -/
def Phase.rest (count handed : Nat) : Phase → Nat
  | .offering => 3 * (count - handed) + count + 3
  | .waiting => count + 2
  | .scanning index => count + 1 - index
  | .returned _ => 0

/-- An upper bound on the number of steps still to come. -/
def rest (pool : Pool) (count : Nat) : Nat :=
  pool.phase.rest count pool.handed + (pool.workers.map Worker.rest).sum
    + (if pool.stopped then 0 else 1) + (if pool.interrupted then 0 else 1)

/-- The share of one worker in the steps of all. -/
theorem sum_rest_split (before after : List Worker) (worker : Worker) :
    ((before ++ worker :: after).map Worker.rest).sum =
      worker.rest + ((before ++ after).map Worker.rest).sum := by
  simp only [List.map_append, List.map_cons, List.sum_append, List.sum_cons]
  omega

theorem rest_after_le (answer : Except StageError LineResult) : (Worker.after answer).rest ≤ 2 := by
  cases answer <;> simp [Worker.after, Worker.rest]

/-- Every step uses up some of the steps still to come. -/
theorem Step.rest_lt {pool next : Pool} (hstep : Step config lines pool next) :
    next.rest lines.length < pool.rest lines.length := by
  cases hstep with
  | handOut before after hphase hmore hidle =>
    -- The line brings the worker two steps more, and the dispatcher has put three aside.
    simp only [rest, hphase, hidle, Phase.rest, sum_rest_split, Worker.rest]
    omega
  | @answer index line answer before after hrunning hfound hprocessed =>
    have hbusy : (Worker.running index).rest = 3 := rfl
    have hlighter := rest_after_le answer
    simp only [rest, record, hrunning, sum_rest_split, hbusy]
    omega
  | stop before after hfailing =>
    simp only [rest, hfailing, sum_rest_split, Worker.rest, ↓reduceIte]
    omega
  | interrupt hrunning => simp [rest, hrunning]
  | propagate hinterrupted hrunning => simp [rest, hinterrupted, hrunning]
  | close hphase hdone =>
    simp only [rest, hphase, Phase.rest]
    omega
  | exit before after hclosed hidle =>
    simp only [rest, hidle, sum_rest_split, Worker.rest]
    omega
  | join hphase hexited =>
    simp only [rest, hphase, Phase.rest]
    omega
  | skip hphase hmore hfine =>
    simp only [rest, hphase, Phase.rest]
    omega
  | fail hphase hmore hfailed =>
    simp only [rest, hphase, Phase.rest]
    omega
  | finish hphase =>
    simp only [rest, hphase, Phase.rest]
    omega

/-- Schedules are bounded: each line is handed out, answered, reported and scanned at most
    once, and each worker leaves once. -/
theorem Schedule.count_le {count : Nat} {pool : Pool}
    (hreached : Schedule config processors lines count pool) :
    count ≤ 4 * lines.length + config.poolSize processors lines + 5 := by
  have hspent : count + pool.rest lines.length ≤
      (Pool.start (config.poolSize processors lines)).rest lines.length := by
    induction hreached with
    | start => simp
    | step _ hstep ih =>
      have := hstep.rest_lt
      omega
  have hinitially : (Pool.start (config.poolSize processors lines)).rest lines.length =
      4 * lines.length + config.poolSize processors lines + 5 := by
    simp only [Pool.rest, Pool.start, Phase.rest, List.map_replicate, List.sum_replicate_nat,
      Worker.rest]
    simp
    omega
  omega

end Pool

end Redex
