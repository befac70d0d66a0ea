import Redex.Proofs.Batch.Pool
import Redex.Proofs.Pipeline.Rereading

/-! # What a batch returns, whatever the schedule

    Lines are handed out in order, so the lines in hand or answered are always the first ones.
    The dispatcher stops early only after a failure or an interruption, and by the time it looks
    for failures every line it handed out has been answered.  The first failure it finds is
    therefore the first of the whole batch, and without one every line has its result: the
    outcome is the one of a sequential run, or the batch was interrupted. -/

namespace Redex

namespace Config

/-! ### The sequential run -/

/-- The answers to lines numbered from `first` on. -/
def answersFrom (config : Config) (first : Nat) (lines : List String) :
    List (Except StageError LineResult) :=
  lines.mapIdx fun i line => config.process (first + i : Nat) line

theorem answersFrom_cons (config : Config) (first : Nat) (line : String) (lines : List String) :
    config.answersFrom first (line :: lines) =
      config.process first line :: config.answersFrom (first + 1) lines := by
  simp [answersFrom, List.mapIdx_cons, Nat.add_assoc, Nat.add_comm 1]

theorem length_answersFrom (config : Config) (first : Nat) (lines : List String) :
    (config.answersFrom first lines).length = lines.length := by
  simp [answersFrom]

theorem getElem?_answersFrom {config : Config} {lines : List String} {index : Nat} {line : String}
    {answer : Except StageError LineResult} (hfound : lines[index]? = some line)
    (hprocessed : config.process (index + 1 : Nat) line = answer) :
    (config.answersFrom 1 lines)[index]? = some answer := by
  rw [answersFrom, List.getElem?_mapIdx, hfound, Option.map_some, Nat.add_comm 1, hprocessed]

/-- The outcome of a batch in terms of the answers to its lines: all of the results in order,
    or the first failure. -/
inductive Sequential (config : Config) (lines : List String) :
    Except BatchError (List LineResult) → Prop where
  | all {results : List LineResult}
      (hanswers : config.answersFrom 1 lines = results.map .ok) :
      Sequential config lines (.ok results)
  | failed {before : List LineResult} {e : StageError}
      {after : List (Except StageError LineResult)}
      (hanswers : config.answersFrom 1 lines = before.map .ok ++ .error e :: after) :
      Sequential config lines (.error (.failed e))

theorem processFrom_of_ok {config : Config} {first : Nat} {lines : List String}
    {results : List LineResult} (hanswers : config.answersFrom first lines = results.map .ok) :
    config.processFrom first lines = .ok results := by
  induction lines generalizing first results with
  | nil =>
    have hnil : results = [] := by simpa [answersFrom] using hanswers
    rw [hnil, processFrom]
  | cons line lines ih =>
    rw [answersFrom_cons] at hanswers
    obtain ⟨result, rest, rfl, hok, hothers⟩ := List.map_eq_cons_iff.1 hanswers.symm
    rw [processFrom, ← hok, ih hothers.symm]
    rfl

theorem processFrom_of_error {config : Config} {first : Nat} {lines : List String}
    {before : List LineResult} {e : StageError} {after : List (Except StageError LineResult)}
    (hanswers : config.answersFrom first lines = before.map .ok ++ .error e :: after) :
    config.processFrom first lines = .error e := by
  induction before generalizing first lines with
  | nil =>
    cases lines with
    | nil => simp [answersFrom] at hanswers
    | cons line lines =>
      rw [answersFrom_cons] at hanswers
      obtain ⟨hfailed, -⟩ := List.cons.inj hanswers
      rw [processFrom, hfailed]
  | cons result before ih =>
    cases lines with
    | nil => simp [answersFrom] at hanswers
    | cons line lines =>
      rw [answersFrom_cons] at hanswers
      obtain ⟨hok, hothers⟩ := List.cons.inj hanswers
      rw [processFrom, hok, ih hothers]
      rfl

/-- Only the outcome of the sequential run is one in terms of the answers. -/
theorem Sequential.eq_runBatch {config : Config} {lines : List String}
    {outcome : Except BatchError (List LineResult)} (hsequential : config.Sequential lines outcome)
    (hnonempty : lines ≠ []) : outcome = config.runBatch lines false := by
  have hfull : lines.isEmpty = false := by simpa using hnonempty
  cases hsequential with
  | all hanswers => simp [runBatch, hfull, processFrom_of_ok hanswers]
  | failed hanswers => simp [runBatch, hfull, processFrom_of_error hanswers]

end Config

namespace Pool

open Config

variable {config : Config} {processors : Nat} {lines : List String}

/-! ### Lines in hand and answered -/

/-- Some line has been recorded as failed. -/
def HasFailure (pool : Pool) : Prop :=
  ∃ i e, pool.slots i = some (.error e)

/-- What holds between the lines handed out, the workers and the answers on record. -/
structure Consistent (config : Config) (lines : List String) (pool : Pool) : Prop where
  staffed : pool.workers ≠ []
  handed_le : pool.handed ≤ lines.length
  /-- Only lines that were handed out are being processed. -/
  running_lt : ∀ i, .running i ∈ pool.workers → i < pool.handed
  /-- Only lines that were handed out have answers, and these are the right ones. -/
  slot : ∀ i answer, pool.slots i = some answer →
    i < pool.handed ∧ (config.answersFrom 1 lines)[i]? = some answer
  /-- No line that was handed out is lost. -/
  covered : ∀ i, i < pool.handed → .running i ∈ pool.workers ∨ (pool.slots i).isSome
  failing : .failing ∈ pool.workers → pool.HasFailure
  stopped : pool.stopped = true → pool.interrupted = true ∨ pool.HasFailure

theorem mem_split {before after : List Worker} {worker other : Worker} :
    other ∈ before ++ worker :: after ↔ other = worker ∨ other ∈ before ++ after := by
  simp only [List.mem_append, List.mem_cons]
  exact or_left_comm

theorem mem_self_of_split {workers before after : List Worker} {worker : Worker}
    (hsplit : workers = before ++ worker :: after) : worker ∈ workers := by
  rw [hsplit]
  exact mem_split.2 (.inl rfl)

theorem mem_of_split {workers before after : List Worker} {worker other : Worker}
    (hsplit : workers = before ++ worker :: after) (hmem : other ∈ before ++ after) :
    other ∈ workers := by
  rw [hsplit]
  exact mem_split.2 (.inr hmem)

theorem consistent_start : Consistent config lines (.start (config.poolSize processors lines)) where
  staffed := by
    have := config.poolSize_pos processors lines
    simp only [start, ne_eq, List.replicate_eq_nil_iff]
    omega
  handed_le := Nat.zero_le _
  running_lt := by simp [start]
  slot := by simp [start]
  covered := by simp [start]
  failing := by simp [start]
  stopped := by simp [start]

/-- The answer to a line takes the place of the same answer, so failures stay on record. -/
theorem HasFailure.record {pool : Pool} {index : Nat} {answer : Except StageError LineResult}
    (hfailure : pool.HasFailure) (hconsistent : Consistent config lines pool)
    (hright : (config.answersFrom 1 lines)[index]? = some answer) :
    (pool.record index answer).HasFailure := by
  obtain ⟨i, e, hfailed⟩ := hfailure
  refine ⟨i, e, ?_⟩
  by_cases hsame : i = index
  · obtain ⟨-, hrecorded⟩ := hconsistent.slot i (.error e) hfailed
    rw [hsame, hright] at hrecorded
    simpa [Pool.record, hsame] using hrecorded
  · simpa [Pool.record, hsame] using hfailed

/-- Recording the right answer keeps everything consistent. -/
theorem Consistent.answer {pool : Pool} {before after : List Worker} {index : Nat}
    {answer : Except StageError LineResult} (hconsistent : Consistent config lines pool)
    (hrunning : pool.workers = before ++ .running index :: after)
    (hright : (config.answersFrom 1 lines)[index]? = some answer) :
    Consistent config lines
      { pool.record index answer with workers := before ++ .after answer :: after } := by
  have hhand : index < pool.handed := hconsistent.running_lt index (mem_self_of_split hrunning)
  constructor
  case staffed => simp
  case handed_le => exact hconsistent.handed_le
  case running_lt =>
    intro i hbusy
    rcases mem_split.1 hbusy with hnow | hother
    · cases answer <;> cases hnow
    · exact hconsistent.running_lt i (mem_of_split hrunning hother)
  case slot =>
    intro i recorded hfilled
    by_cases hsame : i = index
    · have : answer = recorded := by simpa [record, hsame] using hfilled
      rw [hsame, ← this]
      exact ⟨hhand, hright⟩
    · exact hconsistent.slot i recorded (by simpa [record, hsame] using hfilled)
  case covered =>
    intro i hhanded
    by_cases hsame : i = index
    · exact .inr (by simp [record, hsame])
    · rcases hconsistent.covered i hhanded with hbusy | hfilled
      · rw [hrunning, mem_split] at hbusy
        rcases hbusy with hnow | hother
        · exact absurd (Worker.running.inj hnow) hsame
        · exact .inl (mem_split.2 (.inr hother))
      · exact .inr (by simpa [record, hsame] using hfilled)
  case failing =>
    intro hfailing
    rcases mem_split.1 hfailing with hnow | hother
    · cases answer with
      | ok result => cases hnow
      | error e => exact ⟨index, e, by simp [record]⟩
    · exact (hconsistent.failing (mem_of_split hrunning hother)).record hconsistent hright
  case stopped =>
    intro hstopped
    rcases hconsistent.stopped hstopped with hinterrupted | hfailure
    · exact .inl hinterrupted
    · exact .inr (hfailure.record hconsistent hright)

/-- The next line goes to a worker, so the lines handed out are still the first ones. -/
theorem Consistent.handOut {pool : Pool} {before after : List Worker}
    (hconsistent : Consistent config lines pool) (hmore : pool.handed < lines.length)
    (hidle : pool.workers = before ++ .idle :: after) :
    Consistent config lines
      { pool with
        handed := pool.handed + 1
        workers := before ++ .running pool.handed :: after } := by
  constructor
  case staffed => simp
  case handed_le => exact hmore
  case running_lt =>
    intro i hbusy
    rcases mem_split.1 hbusy with hnow | hother
    · rw [Worker.running.inj hnow]
      exact Nat.lt_succ_self _
    · exact Nat.lt_succ_of_lt (hconsistent.running_lt i (mem_of_split hidle hother))
  case slot =>
    intro i answer hfilled
    obtain ⟨hhanded, hright⟩ := hconsistent.slot i answer hfilled
    exact ⟨Nat.lt_succ_of_lt hhanded, hright⟩
  case covered =>
    intro i hhanded
    rcases Nat.lt_succ_iff_lt_or_eq.1 hhanded with hearlier | hlatest
    · rcases hconsistent.covered i hearlier with hbusy | hfilled
      · rw [hidle, mem_split] at hbusy
        rcases hbusy with hnow | hother
        · cases hnow
        · exact .inl (mem_split.2 (.inr hother))
      · exact .inr hfilled
    · exact .inl (mem_split.2 (.inl (by rw [hlatest])))
  case failing =>
    intro hfailing
    rcases mem_split.1 hfailing with hnow | hother
    · cases hnow
    · exact hconsistent.failing (mem_of_split hidle hother)
  case stopped => exact hconsistent.stopped

/-- A worker without a line may change to another state without a line. -/
theorem Consistent.replace {pool : Pool} {before after : List Worker} {old : Worker}
    (new : Worker) (hconsistent : Consistent config lines pool)
    (hworkers : pool.workers = before ++ old :: after) (hold : ∀ i, old ≠ .running i)
    (hnew : ∀ i, new ≠ .running i) (hfine : new ≠ .failing) :
    Consistent config lines { pool with workers := before ++ new :: after } := by
  have hkept : ∀ worker, worker ≠ new → worker ∈ before ++ new :: after →
      worker ∈ pool.workers := by
    intro worker hne hmem
    exact mem_of_split hworkers ((mem_split.1 hmem).resolve_left hne)
  constructor
  case staffed => simp
  case handed_le => exact hconsistent.handed_le
  case running_lt =>
    intro i hbusy
    exact hconsistent.running_lt i (hkept _ (hnew i).symm hbusy)
  case slot => exact hconsistent.slot
  case covered =>
    intro i hhanded
    rcases hconsistent.covered i hhanded with hbusy | hfilled
    · rw [hworkers, mem_split] at hbusy
      exact .inl (mem_split.2 (.inr (hbusy.resolve_left (hold i).symm)))
    · exact .inr hfilled
  case failing =>
    intro hfailing
    exact hconsistent.failing (hkept _ hfine.symm hfailing)
  case stopped => exact hconsistent.stopped

/-- Every step keeps the lines in hand and the answers consistent. -/
theorem Consistent.step {pool next : Pool} (hconsistent : Consistent config lines pool)
    (hstep : Step config lines pool next) : Consistent config lines next := by
  cases hstep with
  | handOut before after hphase hmore hidle => exact hconsistent.handOut hmore hidle
  | answer before after hrunning hfound hprocessed =>
    exact hconsistent.answer hrunning (getElem?_answersFrom hfound hprocessed)
  | stop before after hfailing =>
    have hfailure := hconsistent.failing (mem_self_of_split hfailing)
    have hreplaced := hconsistent.replace .idle hfailing (by simp) (by simp) (by simp)
    exact { hreplaced with stopped := fun _ => .inr hfailure }
  | interrupt hrunning => exact { hconsistent with stopped := fun _ => .inl rfl }
  | propagate hinterrupted hrunning =>
    exact { hconsistent with stopped := fun _ => .inl hinterrupted }
  | exit before after hclosed hidle =>
    exact hconsistent.replace .exited hidle (by simp) (by simp) (by simp)
  | close | join | skip | fail | finish => exact { hconsistent with }

/-! ### The phases of the dispatcher -/

/-- All lines have been handed out, or the dispatcher was told to stop. -/
def Closed (lines : List String) (pool : Pool) : Prop :=
  pool.handed = lines.length ∨ pool.stopped = true

/-- The outcome is that of the sequential run, with no result missing, or the batch was
    interrupted. -/
def Settled (config : Config) (lines : List String) (interrupted : Bool) (outcome : Outcome) :
    Prop :=
  (∃ sequential, config.Sequential lines sequential ∧
    outcome = sequential.map (List.map some)) ∨
  (interrupted = true ∧ outcome = .error .cancelled)

/-- What the dispatcher relies on in each of its phases. -/
def InPhase (config : Config) (lines : List String) (pool : Pool) : Prop :=
  match pool.phase with
  | .offering => .exited ∉ pool.workers
  | .waiting => pool.Closed lines
  | .scanning index =>
    pool.Closed lines ∧ (∀ worker ∈ pool.workers, worker = .exited) ∧
      index ≤ lines.length ∧ ∀ i < index, ∀ e, pool.slots i ≠ some (.error e)
  | .returned outcome =>
    (∀ worker ∈ pool.workers, worker = .exited) ∧
      Settled config lines pool.interrupted outcome

/-- Answers without a failure among them are results. -/
theorem exists_results {answers : List (Except StageError LineResult)} {count : Nat}
    (hfine : ∀ i < count, ∃ result, answers[i]? = some (.ok result)) :
    ∃ results : List LineResult, answers.take count = results.map .ok := by
  induction count with
  | zero => exact ⟨[], rfl⟩
  | succ count ih =>
    obtain ⟨results, htaken⟩ := ih fun i hi => hfine i (Nat.lt_succ_of_lt hi)
    obtain ⟨result, hfound⟩ := hfine count (Nat.lt_succ_self count)
    exact ⟨results ++ [result], by simp [List.take_add_one, htaken, hfound]⟩

/-- When every worker has left, the lines handed out have their answers on record. -/
theorem Consistent.slot_eq {pool : Pool} (hconsistent : Consistent config lines pool)
    (hexited : ∀ worker ∈ pool.workers, worker = .exited) {i : Nat} (hhanded : i < pool.handed) :
    pool.slots i = (config.answersFrom 1 lines)[i]? := by
  rcases hconsistent.covered i hhanded with hbusy | hfilled
  · cases hexited _ hbusy
  · obtain ⟨answer, hrecorded⟩ := Option.isSome_iff_exists.1 hfilled
    rw [hrecorded, (hconsistent.slot i answer hrecorded).2]

/-- Lines that were handed out and did not fail have results. -/
theorem Consistent.exists_result {pool : Pool} (hconsistent : Consistent config lines pool)
    (hexited : ∀ worker ∈ pool.workers, worker = .exited) {i : Nat} (hhanded : i < pool.handed)
    (hfine : ∀ e, pool.slots i ≠ some (.error e)) :
    ∃ result, (config.answersFrom 1 lines)[i]? = some (.ok result) := by
  have hrecorded := hconsistent.slot_eq hexited hhanded
  have hbound : i < (config.answersFrom 1 lines).length := by
    rw [length_answersFrom]
    exact Nat.lt_of_lt_of_le hhanded hconsistent.handed_le
  rw [List.getElem?_eq_getElem hbound] at hrecorded ⊢
  cases hanswer : (config.answersFrom 1 lines)[i] with
  | ok result => exact ⟨result, rfl⟩
  | error e => exact absurd (hanswer ▸ hrecorded) (hfine e)

/-- The first failure on record is the first of the whole batch: every line before it was
    handed out before it, and has been answered. -/
theorem Consistent.settled_fail {pool : Pool} {index : Nat} {e : StageError}
    (hconsistent : Consistent config lines pool)
    (hexited : ∀ worker ∈ pool.workers, worker = .exited)
    (hfine : ∀ i < index, ∀ e, pool.slots i ≠ some (.error e))
    (hfailed : pool.slots index = some (.error e)) :
    config.Sequential lines (.error (.failed e)) := by
  obtain ⟨hhanded, hanswer⟩ := hconsistent.slot index (.error e) hfailed
  obtain ⟨before, htaken⟩ := exists_results fun i hi =>
    hconsistent.exists_result hexited (Nat.lt_trans hi hhanded) (hfine i hi)
  obtain ⟨hbound, hfound⟩ := List.getElem?_eq_some_iff.1 hanswer
  have hsplit : config.answersFrom 1 lines =
      before.map .ok ++ .error e :: (config.answersFrom 1 lines).drop (index + 1) := by
    rw [← htaken, ← hfound, List.getElem_cons_drop, List.take_append_drop]
  exact .failed hsplit

/-- Without a failure on record the dispatcher was not stopped by one, so that all lines have
    been handed out, unless the batch was interrupted. -/
theorem Consistent.settled_finish {pool : Pool} (hconsistent : Consistent config lines pool)
    (hclosed : pool.Closed lines) (hexited : ∀ worker ∈ pool.workers, worker = .exited)
    (hfine : ∀ i < lines.length, ∀ e, pool.slots i ≠ some (.error e))
    (hrunning : pool.interrupted = false) :
    ∃ results, config.Sequential lines (.ok results) ∧
      pool.results lines.length = results.map some := by
  have hall : pool.handed = lines.length := by
    rcases hclosed with hall | hstopped
    · exact hall
    · rcases hconsistent.stopped hstopped with hinterrupted | ⟨i, e, hfailed⟩
      · rw [hrunning] at hinterrupted
        cases hinterrupted
      · have hhanded := (hconsistent.slot i _ hfailed).1
        exact absurd hfailed (hfine i (Nat.lt_of_lt_of_le hhanded hconsistent.handed_le) e)
  obtain ⟨results, htaken⟩ := exists_results fun i hi =>
    hconsistent.exists_result hexited (hall ▸ hi) (hfine i hi)
  rw [← length_answersFrom config 1, List.take_length] at htaken
  refine ⟨results, .all htaken, ?_⟩
  have hcount : lines.length = results.length := by
    rw [← length_answersFrom config 1, htaken, List.length_map]
  apply List.ext_getElem?
  intro i
  by_cases hi : i < lines.length
  · have hrecorded := hconsistent.slot_eq hexited (hall ▸ hi)
    simp [Pool.results, hi, hrecorded, htaken, hcount ▸ hi, Except.toOption]
  · simp [Pool.results, hi, hcount ▸ hi]

theorem inPhase_start : InPhase config lines (.start (config.poolSize processors lines)) := by
  simp [InPhase, start]

/-- Workers move only while the dispatcher hands out lines or waits. -/
theorem InPhase.replace {pool next : Pool} {before after : List Worker} {old new : Worker}
    (hinPhase : InPhase config lines pool) (hsplit : pool.workers = before ++ old :: after)
    (hpresent : old ≠ .exited) (hphase : next.phase = pool.phase)
    (hworkers : next.workers = before ++ new :: after)
    (hhanded : pool.phase ≠ .offering → next.handed = pool.handed)
    (hstopped : pool.stopped = true → next.stopped = true)
    (hstays : pool.phase = .offering → new ≠ .exited) : InPhase config lines next := by
  have hmem := mem_self_of_split hsplit
  unfold InPhase at hinPhase ⊢
  rw [hphase]
  cases hcurrent : pool.phase with
  | offering =>
    simp only [hcurrent] at hinPhase ⊢
    rw [hworkers, mem_split]
    rintro (hnow | hother)
    · exact hstays hcurrent hnow.symm
    · exact hinPhase (mem_of_split hsplit hother)
  | waiting =>
    simp only [hcurrent] at hinPhase ⊢
    have hsame := hhanded (by simp [hcurrent])
    exact hinPhase.imp (fun hall => hsame.trans hall) hstopped
  | scanning index =>
    simp only [hcurrent] at hinPhase
    exact absurd (hinPhase.2.1 old hmem) hpresent
  | returned outcome =>
    simp only [hcurrent] at hinPhase
    exact absurd (hinPhase.1 old hmem) hpresent

/-- The dispatcher may be told to stop, and the batch be interrupted, in every phase. -/
theorem InPhase.raise {pool : Pool} (stopped interrupted : Bool)
    (hinPhase : InPhase config lines pool) (hstops : pool.stopped = true → stopped = true)
    (hinterrupts : pool.interrupted = true → interrupted = true) :
    InPhase config lines { pool with stopped := stopped, interrupted := interrupted } := by
  unfold InPhase at hinPhase ⊢
  cases hcurrent : pool.phase with
  | offering =>
    simp only [hcurrent] at hinPhase ⊢
    exact hinPhase
  | waiting =>
    simp only [hcurrent] at hinPhase ⊢
    exact hinPhase.imp_right hstops
  | scanning index =>
    simp only [hcurrent] at hinPhase ⊢
    exact hinPhase.imp_left (Or.imp_right hstops)
  | returned outcome =>
    simp only [hcurrent] at hinPhase ⊢
    exact hinPhase.imp_right (Or.imp_right (And.imp_left hinterrupts))

theorem after_ne_exited (answer : Except StageError LineResult) :
    Worker.after answer ≠ .exited := by
  cases answer <;> simp [Worker.after]

/-- Every step leaves the dispatcher with what it relies on. -/
theorem InPhase.step {pool next : Pool} (hinPhase : InPhase config lines pool)
    (hconsistent : Consistent config lines pool) (hstep : Step config lines pool next) :
    InPhase config lines next := by
  cases hstep with
  | handOut before after hphase hmore hidle =>
    exact hinPhase.replace hidle (by simp) rfl rfl (absurd hphase ·) id (by simp)
  | answer before after hrunning hfound hprocessed =>
    exact hinPhase.replace hrunning (by simp) rfl rfl (fun _ => rfl) id (fun _ => after_ne_exited _)
  | stop before after hfailing =>
    exact hinPhase.replace hfailing (by simp) rfl rfl (fun _ => rfl) (fun _ => rfl) (by simp)
  | exit before after hclosed hidle =>
    exact hinPhase.replace hidle (by simp) rfl rfl (fun _ => rfl) id (absurd · hclosed)
  | interrupt hrunning => exact hinPhase.raise pool.stopped true id (fun _ => rfl)
  | propagate hinterrupted hrunning => exact hinPhase.raise true pool.interrupted (fun _ => rfl) id
  | close hphase hdone => exact hdone
  | join hphase hexited =>
    simp only [InPhase, hphase] at hinPhase
    exact ⟨hinPhase, hexited, Nat.zero_le _, by simp⟩
  | skip hphase hmore hfine =>
    simp only [InPhase, hphase] at hinPhase
    obtain ⟨hclosed, hexited, -, hearlier⟩ := hinPhase
    refine ⟨hclosed, hexited, hmore, ?_⟩
    intro i hi
    rcases Nat.lt_succ_iff_lt_or_eq.1 hi with hbefore | hnow
    · exact hearlier i hbefore
    · exact hnow ▸ hfine
  | fail hphase hmore hfailed =>
    simp only [InPhase, hphase] at hinPhase
    obtain ⟨-, hexited, -, hearlier⟩ := hinPhase
    exact ⟨hexited, .inl ⟨_, hconsistent.settled_fail hexited hearlier hfailed, rfl⟩⟩
  | finish hphase =>
    simp only [InPhase, hphase] at hinPhase
    obtain ⟨hclosed, hexited, -, hfine⟩ := hinPhase
    refine ⟨hexited, ?_⟩
    cases hinterrupted : pool.interrupted with
    | true => exact .inr ⟨rfl, rfl⟩
    | false =>
      obtain ⟨results, hsequential, hcomplete⟩ :=
        hconsistent.settled_finish hclosed hexited hfine hinterrupted
      exact .inl ⟨_, hsequential, by simp [hcomplete, Except.map]⟩

/-- Along every schedule the pool is consistent and the dispatcher has what it relies on. -/
theorem Schedule.consistent {count : Nat} {pool : Pool}
    (hreached : Schedule config processors lines count pool) :
    Consistent config lines pool ∧ InPhase config lines pool := by
  induction hreached with
  | start => exact ⟨consistent_start, inPhase_start⟩
  | step _ hstep ih =>
    obtain ⟨hconsistent, hinPhase⟩ := ih
    exact ⟨hconsistent.step hstep, hinPhase.step hconsistent hstep⟩

/-! ### No schedule is stuck -/

/-- A worker that has a line or a failure to report can move. -/
theorem Consistent.exists_step {pool : Pool} {worker : Worker}
    (hconsistent : Consistent config lines pool) (hmem : worker ∈ pool.workers)
    (hpresent : worker ≠ .exited) (hbusy : worker ≠ .idle) :
    ∃ next, Step config lines pool next ∧ next.interrupted = pool.interrupted := by
  obtain ⟨before, after, hsplit⟩ := List.append_of_mem hmem
  cases worker with
  | idle => exact absurd rfl hbusy
  | exited => exact absurd rfl hpresent
  | failing => exact ⟨_, .stop before after hsplit, rfl⟩
  | running index =>
    have hbound : index < lines.length :=
      Nat.lt_of_lt_of_le (hconsistent.running_lt index hmem) hconsistent.handed_le
    exact ⟨_, .answer before after hsplit (List.getElem?_eq_getElem hbound) rfl, rfl⟩

/-- Until the batch has returned, some participant can move, whatever happens outside. -/
theorem InPhase.exists_step {pool : Pool} (hinPhase : InPhase config lines pool)
    (hconsistent : Consistent config lines pool)
    (hunfinished : ∀ outcome, pool.phase ≠ .returned outcome) :
    ∃ next, Step config lines pool next ∧ next.interrupted = pool.interrupted := by
  unfold InPhase at hinPhase
  cases hcurrent : pool.phase with
  | offering =>
    simp only [hcurrent] at hinPhase
    by_cases hall : pool.handed = lines.length
    · exact ⟨_, .close hcurrent (.inl hall), rfl⟩
    · have hmore : pool.handed < lines.length := by
        have := hconsistent.handed_le
        omega
      obtain ⟨worker, hmem⟩ := List.exists_mem_of_ne_nil _ hconsistent.staffed
      by_cases hfree : worker = .idle
      · obtain ⟨before, after, hsplit⟩ := List.append_of_mem (hfree ▸ hmem)
        exact ⟨_, .handOut before after hcurrent hmore hsplit, rfl⟩
      · exact hconsistent.exists_step hmem (fun hgone => hinPhase (hgone ▸ hmem)) hfree
  | waiting =>
    by_cases hexited : ∀ worker ∈ pool.workers, worker = .exited
    · exact ⟨_, .join hcurrent hexited, rfl⟩
    · simp only [Classical.not_forall] at hexited
      obtain ⟨worker, hmem, hpresent⟩ := hexited
      by_cases hfree : worker = .idle
      · obtain ⟨before, after, hsplit⟩ := List.append_of_mem (hfree ▸ hmem)
        exact ⟨_, .exit before after (by simp [hcurrent]) hsplit, rfl⟩
      · exact hconsistent.exists_step hmem hpresent hfree
  | scanning index =>
    simp only [hcurrent] at hinPhase
    rcases Nat.lt_or_eq_of_le hinPhase.2.2.1 with hmore | hdone
    · by_cases hfailed : ∃ e, pool.slots index = some (.error e)
      · obtain ⟨e, hfailed⟩ := hfailed
        exact ⟨_, .fail hcurrent hmore hfailed, rfl⟩
      · exact ⟨_, .skip hcurrent hmore (fun e hfound => hfailed ⟨e, hfound⟩), rfl⟩
    · exact ⟨_, .finish (hdone ▸ hcurrent), rfl⟩
  | returned outcome => exact absurd hcurrent (hunfinished outcome)

/-! ### The outcome -/

/-- Whatever the schedule and the number of workers, a batch returns within a bounded number of
    steps, and what it returns is the outcome of the sequential run, which has the results of
    all lines in order or the failure of the first line that fails.  Only a batch that was
    interrupted may return the outcome of a cancelled one instead. -/
theorem Schedule.returns_runBatch {count : Nat} {pool : Pool} (hnonempty : lines ≠ [])
    (hreached : Schedule config processors lines count pool) :
    count ≤ 4 * lines.length + config.poolSize processors lines + 5 ∧
    match pool.phase with
    | .returned outcome => ∃ expected, outcome = expected.map (List.map some) ∧
        (config.Sequential lines expected ∧ expected = config.runBatch lines false ∨
          pool.interrupted = true ∧ expected = config.runBatch lines true)
    | _ => ∃ next, Step config lines pool next ∧ next.interrupted = pool.interrupted := by
  refine ⟨hreached.count_le, ?_⟩
  obtain ⟨hconsistent, hinPhase⟩ := hreached.consistent
  split
  next outcome hreturned =>
    simp only [InPhase, hreturned] at hinPhase
    rcases hinPhase.2 with ⟨expected, hsequential, hsame⟩ | ⟨hinterrupted, hcancelled⟩
    · exact ⟨expected, hsame, .inl ⟨hsequential, hsequential.eq_runBatch hnonempty⟩⟩
    · have hfull : lines.isEmpty = false := by simpa using hnonempty
      exact ⟨config.runBatch lines true, by simp [hcancelled, runBatch, hfull, Except.map],
        .inr ⟨hinterrupted, rfl⟩⟩
  next hunfinished => exact hinPhase.exists_step hconsistent hunfinished

/-- Of two lines that fail, the second is answered first and stops the dispatcher; the failure
    of the first is returned. -/
theorem returns_runBatch_second_first :
    ∃ count pool, Schedule { workers := some 2 } 8 ["#", "#"] count pool ∧
      pool.phase = .returned
        (.error (.failed ⟨"expression", .tokenizing, 1, .lex ⟨.invalidCharacter '#', 1⟩⟩)) ∧
      Config.runBatch { workers := some 2 } ["#", "#"] false =
        .error (.failed ⟨"expression", .tokenizing, 1, .lex ⟨.invalidCharacter '#', 1⟩⟩) := by
  have hscan : Token.scan "#" = .error ⟨.invalidCharacter '#', 1⟩ :=
    (Token.Fault.invalidCharacter (by decide) rfl (by decide) (by decide)).scanFrom_eq 1
  have hfirst : Config.process { workers := some 2 } (0 + 1 : Nat) "#" =
      .error ⟨"expression", .tokenizing, 1, .lex ⟨.invalidCharacter '#', 1⟩⟩ :=
    process_of_scan hscan
  have hsecond : Config.process { workers := some 2 } (1 + 1 : Nat) "#" =
      .error ⟨"expression", .tokenizing, 2, .lex ⟨.invalidCharacter '#', 1⟩⟩ :=
    process_of_scan hscan
  have hbegun : Schedule { workers := some 2 } 8 ["#", "#"] 0 _ := .start
  have hhanded := hbegun.step (.handOut [] [.idle] rfl (by decide) rfl)
    |>.step (.handOut [.running 0] [] rfl (by decide) rfl)
  have hanswered := hhanded.step (.answer [.running 0] [] rfl rfl hsecond)
    |>.step (.stop [.running 0] [] rfl)
    |>.step (.answer [] [.idle] rfl rfl hfirst)
    |>.step (.stop [] [.idle] rfl)
  have hjoined := hanswered.step (.close rfl (.inl rfl))
    |>.step (.exit [] [.idle] (by simp) rfl)
    |>.step (.exit [.exited] [] (by simp) rfl)
    |>.step (.join rfl (by simp))
  have hreached := hjoined.step (.fail rfl (by decide) rfl)
  refine ⟨_, _, hreached, rfl, ?_⟩
  obtain ⟨-, expected, hsame, ⟨-, hsequential⟩ | ⟨hinterrupted, -⟩⟩ :=
    hreached.returns_runBatch (by simp)
  · rw [← hsequential]
    cases expected with
    | ok results => cases hsame
    | error e => exact congrArg _ (Except.error.inj hsame).symm
  · cases hinterrupted

end Pool

end Redex
