import Redex.Proofs.Reducer.TraceBuffer
import Redex.Proofs.Reduction.Ceiling
import Redex.Proofs.Reduction.Simulation

/-! # The registers of a reducer

    A reducer need not keep a log.  It can do with what it is asked for: a counter for visits,
    one for contractions and one for renamings, the names in use, and a buffer for the first
    events.  All of these are updated in the middle of nested calls, and all but the ceiling
    and the buffer start afresh with each reduction.

    The calls are nested as they come, with nothing but the ceiling to end them.  Two things are
    done in a roundabout way.

    * A contraction is a substitution like any other: it first puts all names of the two terms
      into use, though they are.
    * A binder is renamed by a substitution too, with a check for capture of its own.

    The registers follow the log (`Follows`): every call has the result of the reducer that keeps
    a log, and leaves in the registers what the log says.  The invariant is again that the names
    of all terms in play are in use. -/

namespace Redex

open Reduction Reduction.Progress

/-! ### Names in use, in whatever order they were put there -/

namespace Reduction.Supply

/-- The same names are in use, and counting goes on at the same number. -/
structure Same (supply supply' : Supply) : Prop where
  next : supply.next = supply'.next
  used : supply.used.Equiv supply'.used

variable {supply supply' : Supply} {t : Term}

theorem Same.mem_iff (h : supply.Same supply') {x : String} :
    x ∈ supply.used ↔ x ∈ supply'.used :=
  h.used.mem_iff

theorem Same.trans {supply'' : Supply} (h : supply.Same supply') (h' : supply'.Same supply'') :
    supply.Same supply'' :=
  ⟨h.next.trans h'.next, h.used.trans h'.used⟩

theorem firstUnused_congr {used used' : NameSet} (h : used.Equiv used') (base : String)
    (number tries : Nat) :
    firstUnused used base number tries = firstUnused used' base number tries := by
  fun_induction firstUnused used base number tries with
  | case1 number => rfl
  | case2 number tries hused ih =>
    rw [h.contains_eq] at hused
    rw [ih, firstUnused, if_pos hused]
  | case3 number tries hunused =>
    rw [h.contains_eq] at hunused
    rw [firstUnused, if_neg hunused]

theorem Same.fresh (h : supply.Same supply') (base : String) :
    (supply.fresh base).1 = (supply'.fresh base).1 ∧
      (supply.fresh base).2.Same (supply'.fresh base).2 := by
  have hnumber : firstUnused supply.used base supply.next supply.used.size =
      firstUnused supply'.used base supply'.next supply'.used.size := by
    rw [firstUnused_congr h.used, h.next, h.used.size_eq]
  unfold Supply.fresh
  rw [hnumber]
  exact ⟨rfl, rfl, h.used.insert _⟩

/-- Puts the names of a term into use one by one. -/
def register (supply : Supply) (t : Term) : Supply :=
  { supply with used := t.names.toList.foldl (·.insert ·) supply.used }

theorem mem_foldl_insert (names : List String) (used : NameSet) (x : String) :
    x ∈ names.foldl (·.insert ·) used ↔ x ∈ used ∨ x ∈ names := by
  induction names generalizing used with
  | nil => simp
  | cons name names ih =>
    rw [List.foldl_cons, ih, Std.TreeSet.mem_insert, Std.compare_eq_iff_eq, List.mem_cons,
      eq_comm (a := name)]
    tauto

theorem Same.register (h : supply.Same supply') (t : Term) :
    (supply.register t).Same (supply'.reserve t) := by
  refine ⟨h.next, Std.TreeSet.Equiv.of_forall_mem_iff fun x => ?_⟩
  show x ∈ t.names.toList.foldl (·.insert ·) supply.used ↔ x ∈ (supply'.reserve t).used
  rw [mem_foldl_insert, mem_reserve_used, h.mem_iff, Std.TreeSet.mem_toList, Term.mem_names]

theorem namedIn_reserve (supply : Supply) (t : Term) : t.NamedIn (supply.reserve t).used :=
  fun x hx => (mem_reserve_used supply t x).2 (.inr hx)

theorem namedIn_reserve_of_namedIn (h : t.NamedIn supply.used) (value : Term) :
    t.NamedIn (supply.reserve value).used :=
  h.mono fun x hx => (mem_reserve_used supply value x).2 (.inl hx)

/-- To put names into use that are in use already changes nothing. -/
theorem same_reserve (h : t.NamedIn supply.used) : (supply.reserve t).Same supply := by
  refine ⟨rfl, Std.TreeSet.Equiv.of_forall_mem_iff fun x => ?_⟩
  rw [mem_reserve_used]
  exact or_iff_left_of_imp (h x)

end Reduction.Supply

/-! ### Registers -/

/-- What a reducer keeps. -/
structure Registers where
  /-- The most subterms that one reduction may visit. -/
  ceiling : Nat := 10000
  /-- The number of subterms visited. -/
  steps : Nat := 0
  /-- Where fresh names come from. -/
  supply : Supply := {}
  /-- The number of redexes contracted. -/
  beta : Nat := 0
  /-- The number of binders renamed. -/
  alpha : Nat := 0
  buffer : TraceBuffer := .off

namespace Registers

def stats (regs : Registers) : Stats :=
  ⟨regs.steps, regs.beta, regs.alpha⟩

def tick (regs : Registers) : Registers :=
  { regs with steps := regs.steps + 1 }

def record (regs : Registers) (rule : Rule) : Registers :=
  { regs with buffer := regs.buffer.record ⟨regs.steps, rule⟩ }

/-- Starts afresh for a term. -/
def reset (regs : Registers) (t : Term) : Registers :=
  { regs with
    steps := 0
    supply := .ofTerm t
    beta := 0
    alpha := 0
    buffer := regs.buffer.reset }

/-- Puts the names of a term into use. -/
def register (regs : Registers) (t : Term) : Registers :=
  { regs with supply := regs.supply.register t }

/-- Takes a fresh name for a binder, and counts and records the renaming. -/
def renameBinder (regs : Registers) (binder : String) : String × Registers :=
  let (fresh, supply) := regs.supply.fresh binder
  (fresh, { regs with supply, alpha := regs.alpha + 1 }.record (.alpha binder fresh))

/-! ### Substitution -/

/-- What the replacement of a name by `value` in a term leaves. -/
structure Replaced (regs : Registers) (t value : Term) where
  term : Term
  after : Registers
  steps_eq : after.steps = regs.steps
  ceiling_eq : after.ceiling = regs.ceiling
  /-- A term in which variables are replaced by variables keeps its size. -/
  size_eq : value.size = 1 → term.size = t.size

/-- Replaces the free occurrences of `name` by `value`, whose free variables are `avoid`.  A binder
    that is renamed is itself replaced in its body first. -/
def replaceIn (regs : Registers) (t : Term) (name : String) (value : Term) (avoid : NameSet) :
    Replaced regs t value :=
  match t with
  | .missing => ⟨.missing, regs, rfl, rfl, fun _ => rfl⟩
  | .var x =>
    ⟨if x = name then value else .var x, regs, rfl, rfl, by intro h; split <;> simp [h, Term.size]⟩
  | .abs x ty body =>
    if x = name then ⟨.abs x ty body, regs, rfl, rfl, fun _ => rfl⟩
    else if avoid.contains x then
      let minted := regs.renameBinder x
      let renamed := minted.2.replaceIn body x (.var minted.1) {minted.1}
      let replaced := renamed.after.replaceIn renamed.term name value avoid
      ⟨.abs minted.1 ty replaced.term, replaced.after,
        replaced.steps_eq.trans renamed.steps_eq, replaced.ceiling_eq.trans renamed.ceiling_eq,
        fun h => congrArg (· + 1) ((replaced.size_eq h).trans (renamed.size_eq rfl))⟩
    else
      let replaced := regs.replaceIn body name value avoid
      ⟨.abs x ty replaced.term, replaced.after, replaced.steps_eq, replaced.ceiling_eq,
        fun h => congrArg (· + 1) (replaced.size_eq h)⟩
  | .app fn arg =>
    let left := regs.replaceIn fn name value avoid
    let right := left.after.replaceIn arg name value avoid
    ⟨.app left.term right.term, right.after, right.steps_eq.trans left.steps_eq,
      right.ceiling_eq.trans left.ceiling_eq,
      fun h => by rw [Term.size, Term.size, left.size_eq h, right.size_eq h]⟩
termination_by t.size
decreasing_by
  · simp [Term.size]
  · -- the body has the same size under its new name
    have hsize : renamed.term.size = body.size := renamed.size_eq rfl
    show renamed.term.size < body.size + 1
    omega
  all_goals
    simp only [Term.size]
    omega

/-- Replaces the free occurrences of `name` in a term by `value`.  The names of the two terms are
    put into use first. -/
def substitute (regs : Registers) (t : Term) (name : String) (value : Term) : Term × Registers :=
  let replaced := ((regs.register t).register value).replaceIn t name value value.free
  (replaced.term, replaced.after)

/-! ### Reduction -/

/-- Counts and records the contraction of a redex, and makes it. -/
def contract (regs : Registers) (fn arg : Term) : Except ReduceError Term × Registers :=
  match fn with
  | .abs binder _ body =>
    let counted := { regs with beta := regs.beta + 1 }.record (.beta binder)
    let (contractum, regs) := counted.substitute body binder arg
    (.ok contractum, regs)
  | _ => (.error (.notAnAbstraction regs.ceiling), regs)

theorem contract_steps (regs : Registers) (fn arg : Term) :
    (regs.contract fn arg).2.steps = regs.steps := by
  cases fn with
  | abs binder ty body => exact Replaced.steps_eq _
  | missing | var | app => rfl

theorem contract_ceiling (regs : Registers) (fn arg : Term) :
    (regs.contract fn arg).2.ceiling = regs.ceiling := by
  cases fn with
  | abs binder ty body => exact Replaced.ceiling_eq _
  | missing | var | app => rfl

/-- What a visit leaves. -/
structure Visited (regs : Registers) where
  result : Except ReduceError Term
  after : Registers
  steps_lt : regs.steps < after.steps
  ceiling_eq : after.ceiling = regs.ceiling

/-- Brings a term to normal form, unless the visits come to more than the ceiling. -/
def visit (regs : Registers) (t : Term) : Visited regs :=
  if _ : regs.ceiling < regs.steps + 1 then
    ⟨.error (.outOfBounds regs.ceiling), regs.tick, Nat.lt_succ_self _, rfl⟩
  else
    match t with
    | .missing => ⟨.ok .missing, regs.tick, Nat.lt_succ_self _, rfl⟩
    | .var x => ⟨.ok (.var x), regs.tick, Nat.lt_succ_self _, rfl⟩
    | .abs binder ty body =>
      let below := regs.tick.visit body
      ⟨below.result.map (.abs binder ty), below.after, Nat.lt_of_succ_lt below.steps_lt,
        below.ceiling_eq⟩
    | .app fn arg =>
      let left := regs.tick.visit fn
      have hleft : regs.steps < left.after.steps := Nat.lt_of_succ_lt left.steps_lt
      match left.result with
      | .error e => ⟨.error e, left.after, hleft, left.ceiling_eq⟩
      | .ok fn =>
        if fn.isAbs then
          let contracted := left.after.contract fn arg
          have hsteps : contracted.2.steps = left.after.steps := contract_steps _ fn arg
          have hceiling : contracted.2.ceiling = left.after.ceiling := contract_ceiling _ fn arg
          match contracted.1 with
          | .error e =>
            ⟨.error e, contracted.2, hsteps ▸ hleft, hceiling.trans left.ceiling_eq⟩
          | .ok contractum =>
            let last := contracted.2.visit contractum
            ⟨last.result, last.after, Nat.lt_trans (hsteps ▸ hleft) last.steps_lt,
              (last.ceiling_eq.trans hceiling).trans left.ceiling_eq⟩
        else
          let right := left.after.visit arg
          ⟨right.result.map (.app fn), right.after, Nat.lt_trans hleft right.steps_lt,
            right.ceiling_eq.trans left.ceiling_eq⟩
termination_by regs.ceiling + 1 - regs.steps
decreasing_by
  · show regs.ceiling + 1 - (regs.steps + 1) < regs.ceiling + 1 - regs.steps
    omega
  · show regs.ceiling + 1 - (regs.steps + 1) < regs.ceiling + 1 - regs.steps
    omega
  · show contracted.2.ceiling + 1 - contracted.2.steps < regs.ceiling + 1 - regs.steps
    have hsame : left.after.ceiling = regs.ceiling := left.ceiling_eq
    omega
  · show left.after.ceiling + 1 - left.after.steps < regs.ceiling + 1 - regs.steps
    have hsame : left.after.ceiling = regs.ceiling := left.ceiling_eq
    omega

/-- Reduces a term. -/
def reduce (regs : Registers) (t : Term) : Except ReduceError Term × Registers :=
  let visited := (regs.reset t).visit t
  (visited.result, visited.after)

/-! ### Single updates follow the log -/

/-- The registers hold what the progress of a reduction says, and the buffer what a window on its
    log shows. -/
structure Follows (regs : Registers) (ceiling : Nat) (window : Option TraceWindow)
    (progress : Progress) : Prop where
  ceiling : regs.ceiling = ceiling
  steps : regs.steps = progress.steps
  supply : regs.supply.Same progress.supply
  beta : regs.beta = progress.stats.beta
  alpha : regs.alpha = progress.stats.alpha
  buffer : regs.buffer.Shows progress.log window

section Follows

variable {regs : Registers} {ceiling : Nat} {window : Option TraceWindow} {progress : Progress}
  {t : Term}

theorem Follows.stats (h : regs.Follows ceiling window progress) : regs.stats = progress.stats := by
  show Stats.mk regs.steps regs.beta regs.alpha = progress.stats
  rw [h.steps, h.beta, h.alpha]
  rfl

theorem Follows.tick (h : regs.Follows ceiling window progress) :
    regs.tick.Follows ceiling window progress.tick :=
  { h with steps := congrArg (· + 1) h.steps }

/-- A conversion that is counted and recorded. -/
theorem Follows.record (h : regs.Follows ceiling window progress) (rule : Rule) :
    ({ regs with
      beta := regs.beta + rule.isBeta.toNat
      alpha := regs.alpha + rule.isAlpha.toNat }.record rule).Follows ceiling window
        (progress.record rule) where
  ceiling := h.ceiling
  steps := h.steps
  supply := h.supply
  beta := by
    show regs.beta + rule.isBeta.toNat = (progress.record rule).log.countP (·.rule.isBeta)
    rw [h.beta, Progress.record, List.countP_cons]
    cases rule <;> rfl
  alpha := by
    show regs.alpha + rule.isAlpha.toNat = (progress.record rule).log.countP (·.rule.isAlpha)
    rw [h.alpha, Progress.record, List.countP_cons]
    cases rule <;> rfl
  buffer := by
    show (regs.buffer.record ⟨regs.steps, rule⟩).Shows _ window
    rw [h.steps]
    exact h.buffer.record _

/-- Both take the same fresh name. -/
theorem Follows.renameBinder (h : regs.Follows ceiling window progress) (binder : String) :
    (regs.renameBinder binder).1 = (progress.renameBinder binder).1 ∧
      (regs.renameBinder binder).2.Follows ceiling window (progress.renameBinder binder).2 := by
  obtain ⟨hname, hafter⟩ := h.supply.fresh binder
  have hminted : ({ regs with supply := (regs.supply.fresh binder).2 } : Registers).Follows ceiling
      window { progress with supply := (progress.supply.fresh binder).2 } :=
    { h with supply := hafter }
  refine ⟨hname, ?_⟩
  show (Registers.record _ (.alpha binder (regs.supply.fresh binder).1)).Follows ceiling window _
  rw [hname]
  exact hminted.record (.alpha binder (progress.supply.fresh binder).1)

theorem Follows.register (h : regs.Follows ceiling window progress) (t : Term) :
    (regs.register t).Follows ceiling window
      { progress with supply := progress.supply.reserve t } :=
  { h with supply := h.supply.register t }

/-- The names of a term that is in play are in use already. -/
theorem Follows.register_of_namedIn (h : regs.Follows ceiling window progress)
    (ht : t.NamedIn progress.supply.used) : (regs.register t).Follows ceiling window progress :=
  { h with supply := (h.supply.register t).trans (Supply.same_reserve ht) }

theorem Follows.reset (h : regs.Follows ceiling window progress) (t : Term) :
    (regs.reset t).Follows ceiling (window.map ({ · with start := 0 })) (.ofTerm t) where
  ceiling := h.ceiling
  steps := rfl
  supply := ⟨rfl, .rfl⟩
  beta := rfl
  alpha := rfl
  buffer := h.buffer.reset

/-! ### Substitution follows the log -/

/-- To replace a name by a variable that is new to the term is to rename it: the check for
    capture never finds anything. -/
theorem replaceIn_var (regs : Registers) {new : String} (hnew : ¬ t.Mentions new) (old : String) :
    (regs.replaceIn t old (.var new) {new}).term = t.rename old new ∧
      (regs.replaceIn t old (.var new) {new}).after = regs := by
  induction t generalizing regs with
  | missing =>
    rw [replaceIn]
    exact ⟨rfl, rfl⟩
  | var x =>
    rw [replaceIn, Term.rename]
    exact ⟨(apply_ite Term.var _ _ _).symm, rfl⟩
  | abs x ty body ih =>
    simp only [Term.Mentions, not_or] at hnew
    have hfree : ¬ Std.TreeSet.contains ({new} : NameSet) x = true := by
      rw [Std.TreeSet.contains_iff_mem]
      simpa using hnew.1
    rw [replaceIn, Term.rename]
    by_cases hx : x = old
    · rw [if_pos hx, if_pos hx]
      exact ⟨rfl, rfl⟩
    · rw [if_neg hx, if_neg hx, if_neg hfree]
      exact ⟨congrArg (Term.abs x ty) (ih regs hnew.2).1, (ih regs hnew.2).2⟩
  | app fn arg ihf iha =>
    simp only [Term.Mentions, not_or] at hnew
    have hleft : (regs.replaceIn fn old (.var new) {new}).term = fn.rename old new ∧
        (regs.replaceIn fn old (.var new) {new}).after = regs := ihf regs hnew.1
    rw [replaceIn, Term.rename]
    show Term.app _ ((regs.replaceIn fn old (.var new) {new}).after.replaceIn arg old _ _).term = _ ∧
      ((regs.replaceIn fn old (.var new) {new}).after.replaceIn arg old _ _).after = regs
    rw [hleft.1, hleft.2, (iha regs hnew.2).1]
    exact ⟨rfl, (iha regs hnew.2).2⟩

theorem Follows.replaceIn (h : regs.Follows ceiling window progress)
    (ht : t.NamedIn progress.supply.used) (name : String) (value : Term) (avoid : NameSet) :
    (regs.replaceIn t name value avoid).term = (t.substitute name value avoid progress).1 ∧
      (regs.replaceIn t name value avoid).after.Follows ceiling window
        (t.substitute name value avoid progress).2 := by
  fun_induction Term.substitute t name value avoid progress generalizing regs with
  | case1 progress =>
    rw [Registers.replaceIn]
    exact ⟨rfl, h⟩
  | case2 progress x =>
    rw [Registers.replaceIn]
    exact ⟨rfl, h⟩
  | case3 progress ty body =>
    rw [Registers.replaceIn, if_pos rfl]
    exact ⟨rfl, h⟩
  | case4 progress x ty body hx hcapture fresh progress₁ hfresh body₁ progress₂ hbody ih =>
    obtain ⟨hname, hminted⟩ := h.renameBinder x
    rw [hfresh] at hname hminted
    obtain rfl : (regs.renameBinder x).1 = fresh := hname
    -- the fresh name is new to the body, where it takes the place of the binder
    have hnew : ¬ body.Mentions (regs.renameBinder x).1 := fun hmentions =>
      Progress.renameBinder_not_mem hfresh (ht.of_abs.2 _ hmentions)
    have hnamed : (body.rename x (regs.renameBinder x).1).NamedIn progress₁.supply.used :=
      ht.of_abs.2.rename (Progress.renameBinder_extends hfresh).used
        (Progress.renameBinder_mem hfresh)
    obtain ⟨hterm, hafter⟩ := ih hminted hnamed
    obtain ⟨hrenamed, hsame⟩ := replaceIn_var (regs.renameBinder x).2 hnew x
    rw [hbody] at hterm hafter
    rw [Registers.replaceIn, if_neg hx, if_pos hcapture]
    constructor
    · show Term.abs _ ty (Registers.replaceIn _ _ name value avoid).term = _
      rw [hrenamed, hsame, hterm]
    · show (Registers.replaceIn _ _ name value avoid).after.Follows ceiling window _
      rw [hrenamed, hsame]
      exact hafter
  | case5 progress x ty body hx hcapture body₁ progress₁ hbody ih =>
    obtain ⟨hterm, hafter⟩ := ih h ht.of_abs.2
    rw [hbody] at hterm hafter
    rw [Registers.replaceIn, if_neg hx, if_neg hcapture]
    exact ⟨congrArg (Term.abs x ty) hterm, hafter⟩
  | case6 progress fn arg fn₁ progress₁ hfn arg₁ progress₂ harg ihf iha =>
    have hgrow := (Term.substitute_extends fn name value avoid progress).used
    obtain ⟨hterm₁, hafter₁⟩ := ihf h ht.of_app.1
    rw [hfn] at hterm₁ hafter₁ hgrow
    obtain ⟨hterm₂, hafter₂⟩ := iha hafter₁ (ht.of_app.2.mono hgrow)
    rw [harg] at hterm₂ hafter₂
    rw [Registers.replaceIn]
    exact ⟨congrArg₂ Term.app hterm₁ hterm₂, hafter₂⟩

theorem Follows.substitute (h : regs.Follows ceiling window progress) (t : Term) (name : String)
    (value : Term) :
    let start := { progress with supply := (progress.supply.reserve t).reserve value }
    (regs.substitute t name value).1 = (t.substitute name value value.free start).1 ∧
      (regs.substitute t name value).2.Follows ceiling window
        (t.substitute name value value.free start).2 := by
  intro start
  have ht : t.NamedIn start.supply.used :=
    Supply.namedIn_reserve_of_namedIn (Supply.namedIn_reserve progress.supply t) value
  exact ((h.register t).register value).replaceIn ht name value value.free

/-- A contraction has no new names to put into use. -/
theorem Follows.contract (h : regs.Follows ceiling window progress) {fn arg : Term}
    (hfn : fn.NamedIn progress.supply.used) (harg : arg.NamedIn progress.supply.used) :
    (regs.contract fn arg).1 = (Reduction.contract ceiling fn arg progress).1 ∧
      (regs.contract fn arg).2.Follows ceiling window
        (Reduction.contract ceiling fn arg progress).2 := by
  cases fn with
  | abs binder ty body =>
    have hcounted := h.record (.beta binder)
    have hbody : body.NamedIn (progress.record (.beta binder)).supply.used := hfn.of_abs.2
    obtain ⟨hterm, hafter⟩ :=
      ((hcounted.register_of_namedIn hbody).register_of_namedIn harg).replaceIn hbody binder arg
        arg.free
    exact ⟨congrArg Except.ok hterm, hafter⟩
  | missing | var | app =>
    unfold Registers.contract Reduction.contract
    rw [h.ceiling]
    exact ⟨rfl, h⟩

/-! ### Reduction follows the log -/

/-- A visit that returns keeps to the names in use. -/
theorem namedIn_of_visit {depth : Nat} {n : Term} {progress' : Progress}
    (hvisit : Reduction.visit ceiling depth t progress = (.ok n, progress'))
    (ht : t.NamedIn progress.supply.used) :
    n.NamedIn progress'.supply.used ∧ ∀ x ∈ progress.supply.used, x ∈ progress'.supply.used := by
  have hagrees := visit_agrees ceiling depth t progress .free ht Env.simple_free
  rw [hvisit] at hagrees
  exact ⟨hagrees.namedIn, hagrees.used⟩

theorem namedIn_of_contract {fn arg contractum : Term} {progress' : Progress}
    (hfn : fn.isAbs = true)
    (hcontract : Reduction.contract ceiling fn arg progress = (.ok contractum, progress'))
    (hnamed : fn.NamedIn progress.supply.used) (harg : arg.NamedIn progress.supply.used) :
    contractum.NamedIn progress'.supply.used := by
  obtain ⟨binder, ty, body, rfl⟩ := Term.exists_of_isAbs hfn
  cases hcontract
  have hbody : body.NamedIn (progress.record (.beta binder)).supply.used := hnamed.of_abs.2
  exact hbody.substitute harg

theorem Follows.visit_of_over (h : regs.Follows ceiling window progress)
    (hover : ceiling < progress.tick.steps) :
    (regs.visit t).result = .error (.outOfBounds ceiling) ∧ (regs.visit t).after = regs.tick := by
  rw [← h.ceiling] at hover ⊢
  rw [Registers.visit.eq_def, dif_pos (show regs.ceiling < regs.steps + 1 by rwa [h.steps])]
  exact ⟨rfl, rfl⟩

theorem Follows.within (h : regs.Follows ceiling window progress)
    (hle : ¬ ceiling < progress.tick.steps) : ¬ regs.ceiling < regs.steps + 1 := by
  rw [h.ceiling, h.steps]
  exact hle

/-- The depth of the calls needs no bound of its own where there is one on the visits. -/
theorem Follows.visit {depth : Nat} (h : regs.Follows ceiling window progress)
    (ht : t.NamedIn progress.supply.used) (hdepth : ceiling ≤ progress.steps + depth) :
    (regs.visit t).result = (Reduction.visit ceiling depth t progress).1 ∧
      (regs.visit t).after.Follows ceiling window
        (Reduction.visit ceiling depth t progress).2 := by
  fun_induction Reduction.visit ceiling depth t progress generalizing regs
  case case1 t progress =>
    -- the depth is used up only where the ceiling is
    obtain ⟨hresult, hafter⟩ := h.visit_of_over (t := t) (Nat.lt_succ_of_le hdepth)
    rw [hresult, hafter]
    exact ⟨rfl, h.tick⟩
  case case2 depth t progress _ hlt =>
    obtain ⟨hresult, hafter⟩ := h.visit_of_over (t := t) hlt
    rw [hresult, hafter]
    exact ⟨rfl, h.tick⟩
  case case3 depth progress _ hle | case4 depth progress _ hle x =>
    rw [Registers.visit, dif_neg (h.within hle)]
    exact ⟨rfl, h.tick⟩
  case
    case5 depth progress _ hle x ty body e progress₁ hbelow ih
    | case6 depth progress _ hle x ty body body' progress₁ hbelow ih =>
    obtain ⟨hresult, hafter⟩ := ih h.tick ht.of_abs.2 (by rw [tick_steps]; omega)
    rw [hbelow] at hresult hafter
    rw [Registers.visit, dif_neg (h.within hle)]
    exact ⟨congrArg (Except.map (Term.abs x ty)) hresult, hafter⟩
  case case7 depth progress _ hle fn arg e progress₁ hbelow ih =>
    obtain ⟨hresult, hafter⟩ := ih h.tick ht.of_app.1 (by rw [tick_steps]; omega)
    rw [hbelow] at hresult hafter
    rw [Registers.visit, dif_neg (h.within hle)]
    simp only [hresult]
    exact ⟨trivial, hafter⟩
  case case8 depth progress _ hle fn arg fn' progress₁ hfn isAbs e progress₂ hcontract ihf =>
    obtain ⟨_, _, _, _, _, hok, _⟩ := contract_of_isAbs isAbs hcontract
    cases hok
  case case9 depth progress _ hle fn arg fn' progress₁ hfn isAbs u progress₂ hcontract ihf ih =>
    obtain ⟨hnamed, hused⟩ := namedIn_of_visit hfn ht.of_app.1
    have hnamedArg := ht.of_app.2.mono hused
    obtain ⟨hresult₁, hafter₁⟩ := ihf h.tick ht.of_app.1 (by rw [tick_steps]; omega)
    rw [hfn] at hresult₁ hafter₁
    obtain ⟨hresult₂, hafter₂⟩ := hafter₁.contract hnamed hnamedArg
    rw [hcontract] at hresult₂ hafter₂
    have hroom := room_of_visit hfn hdepth
    have hsame := steps_of_contract isAbs hcontract
    have hnamed₂ := namedIn_of_contract isAbs hcontract hnamed hnamedArg
    obtain ⟨hresult, hafter⟩ := ih hafter₂ hnamed₂ (by omega)
    rw [Registers.visit, dif_neg (h.within hle)]
    simp only [hresult₁, if_pos isAbs, hresult₂]
    exact ⟨hresult, hafter⟩
  case
    case10 depth progress _ hle fn arg fn' progress₁ hfn isAbs e progress₂ harg ihf iha
    | case11 depth progress _ hle fn arg fn' progress₁ hfn isAbs arg' progress₂ harg ihf iha =>
    obtain ⟨hnamed, hused⟩ := namedIn_of_visit hfn ht.of_app.1
    obtain ⟨hresult₁, hafter₁⟩ := ihf h.tick ht.of_app.1 (by rw [tick_steps]; omega)
    rw [hfn] at hresult₁ hafter₁
    obtain ⟨hresult, hafter⟩ :=
      iha hafter₁ (ht.of_app.2.mono hused) (room_of_visit hfn hdepth)
    rw [harg] at hresult hafter
    rw [Registers.visit, dif_neg (h.within hle)]
    simp only [hresult₁, if_neg isAbs]
    exact ⟨congrArg (Except.map (Term.app fn')) hresult, hafter⟩

/-- A reduction depends on nothing in the registers but the ceiling and the room in the buffer. -/
theorem Follows.reduce (h : regs.Follows ceiling window progress) (t : Term) :
    (regs.reduce t).1 = (normalize ceiling t).1 ∧
      (regs.reduce t).2.Follows ceiling (window.map ({ · with start := 0 }))
        (normalize ceiling t).2 :=
  (h.reset t).visit (Supply.namedIn_ofTerm t) (Nat.le_add_left _ _)

end Follows

end Registers

end Redex
