import Mathlib.Data.Finset.Basic
import Mathlib.Data.Finset.SDiff
import Redex.Proofs.Term.Names

/-! # Collecting free variables with one set of bound names

    The free variables of a term are given by recursion (`freeNames`).  They can be collected in
    one pass that has a single set of bound names for all parts of the term: a binder puts its
    name into the set before its body, and takes it out again behind the body, unless an outer
    binder of the same name has put it there (`collect`).

    The set is at the end of each part what it was at the beginning (`collect_restores`).  So what
    comes later in the pass is not touched by what came before, and the pass collects the same
    set as `addFree`, which hands a set of its own to every part (`collect_free`). -/

namespace Redex.Term

/-! ### Free variables by recursion -/

/-- The free variables of a term. -/
def freeNames : Term → Finset String
  | .missing => ∅
  | .var x => {x}
  | .abs x _ body => body.freeNames \ {x}
  | .app fn arg => fn.freeNames ∪ arg.freeNames

theorem mem_freeNames {t : Term} {x : String} : x ∈ t.freeNames ↔ t.HasFree x := by
  induction t with
  | missing => simp [freeNames, HasFree]
  | var y => simp [freeNames, HasFree]
  | abs y ty body ih =>
    rw [freeNames, Finset.mem_sdiff, Finset.mem_singleton, ih, HasFree, and_comm]
  | app fn arg ihf iha => rw [freeNames, Finset.mem_union, ihf, iha, HasFree]

/-! ### One pass over the term -/

/-- The state of a pass: the free variables found so far, and the names that are bound at this
    point. -/
structure Pass where
  free : NameSet
  bound : NameSet

/-- Collects the free variables of a term, with one set of bound names for all its parts. -/
def collect (pass : Pass) : Term → Pass
  | .missing => pass
  | .var x => if pass.bound.contains x then pass else { pass with free := pass.free.insert x }
  | .abs x _ body =>
    let behind := body.collect { pass with bound := pass.bound.insert x }
    -- only the binder that has put the name into the set takes it out again
    if pass.bound.contains x then behind else { behind with bound := behind.bound.erase x }
  | .app fn arg => arg.collect (fn.collect pass)

theorem insert_equiv_of_mem {bound : NameSet} {x : String} (hx : x ∈ bound) :
    (bound.insert x).Equiv bound := by
  refine Std.TreeSet.Equiv.of_forall_mem_iff fun y => ?_
  rw [Std.TreeSet.mem_insert, Std.compare_eq_iff_eq, or_iff_right_iff_imp]
  rintro rfl
  exact hx

theorem erase_insert_equiv {bound : NameSet} {x : String} (hx : x ∉ bound) :
    ((bound.insert x).erase x).Equiv bound := by
  refine Std.TreeSet.Equiv.of_forall_mem_iff fun y => ?_
  rw [Std.TreeSet.mem_erase, Std.TreeSet.mem_insert, Ne, Std.compare_eq_iff_eq]
  constructor
  · rintro ⟨hne, hxy | hy⟩
    · exact absurd hxy hne
    · exact hy
  · intro hy
    refine ⟨?_, .inr hy⟩
    rintro rfl
    exact hx hy

/-- The pass leaves the bound names of every term as it has found them. -/
theorem collect_restores (t : Term) (pass : Pass) :
    (t.collect pass).bound.Equiv pass.bound := by
  induction t generalizing pass with
  | missing => exact .rfl
  | var x =>
    unfold collect
    split
    · exact .rfl
    · exact .rfl
  | abs x ty body ih =>
    have hbody := ih { pass with bound := pass.bound.insert x }
    unfold collect
    split
    · -- the name stays for the outer binder, which has put it there
      rename_i hx
      exact hbody.trans (insert_equiv_of_mem hx)
    · rename_i hx
      exact (hbody.erase x).trans (erase_insert_equiv hx)
  | app fn arg ihf iha => exact (iha _).trans (ihf pass)

/-- With the same names bound, the pass finds what `addFree` adds. -/
theorem collect_free (t : Term) (pass : Pass) {bound : NameSet} (h : pass.bound.Equiv bound) :
    (t.collect pass).free = t.addFree bound pass.free := by
  induction t generalizing pass bound with
  | missing => rfl
  | var x =>
    rw [collect, addFree, h.contains_eq]
    split
    · rfl
    · rfl
  | abs x ty body ih =>
    have hbody := ih { pass with bound := pass.bound.insert x } (h.insert x)
    rw [addFree, ← hbody, collect]
    split
    · rfl
    · rfl
  | app fn arg ihf iha =>
    -- the argument is reached with the bound names of the function, restored
    have hrestored := (fn.collect_restores pass).trans h
    rw [collect, addFree, iha _ hrestored, ihf pass h]

/-- The free variables are those of the definition by recursion.  A single pass with one set of
    bound names finds them too: from any state, it adds the free variables of the term that are not
    bound at this point, and leaves the bound names as they were. -/
theorem free_eq_freeNames (t : Term) :
    (∀ x, x ∈ t.free ↔ x ∈ t.freeNames) ∧
    (t.collect ⟨∅, ∅⟩).free = t.free ∧
    ∀ pass : Pass, (t.collect pass).bound.Equiv pass.bound ∧
      ∀ x, x ∈ (t.collect pass).free ↔ x ∈ pass.free ∨ x ∈ t.freeNames ∧ x ∉ pass.bound := by
  refine ⟨fun x => ?_, t.collect_free ⟨∅, ∅⟩ .rfl, fun pass => ⟨t.collect_restores pass, ?_⟩⟩
  · rw [mem_free, mem_freeNames]
  · intro x
    rw [t.collect_free pass .rfl, mem_addFree, mem_freeNames, and_comm]

/-- In `λx.(λx.x) x` the inner binder leaves the name in the set, so the argument behind it is still
    bound. -/
example :
    ((abs "x" .missing (app (abs "x" .missing (var "x")) (var "x"))).collect ⟨∅, ∅⟩).free.toList =
      [] := by
  decide +kernel

end Redex.Term
