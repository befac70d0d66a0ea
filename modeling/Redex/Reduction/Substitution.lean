import Redex.Reduction.Progress

/-! # Substitution

    `Term.substitute` replaces the free occurrences of a name by a term.  A binder that
    would capture a free variable of that term is first renamed to a fresh name. -/

namespace Redex.Term

open Reduction

/-- Renames the free occurrences of a name.  The new name is meant to be fresh: no binder
    of the term has it. -/
def rename (old new : String) : Term → Term
  | .missing => .missing
  | .var x => .var (if x = old then new else x)
  | .abs x ty body =>
    if x = old then .abs x ty body else .abs x ty (body.rename old new)
  | .app fn arg => .app (fn.rename old new) (arg.rename old new)

@[simp] theorem size_rename (old new : String) (t : Term) : (t.rename old new).size = t.size := by
  induction t with
  | missing => rfl
  | var x => rfl
  | abs x ty body ih =>
    unfold rename
    split
    · rfl
    · simp [size, ih]
  | app fn arg ihf iha => simp [rename, size, ihf, iha]

/-- Replaces the free occurrences of `name` by `value`, whose free variables are `avoid`.
    An abstraction that binds `name` again stays as it is. -/
def substitute (t : Term) (name : String) (value : Term) (avoid : NameSet)
    (progress : Progress) : Term × Progress :=
  match t with
  | .missing => (.missing, progress)
  | .var x => (if x = name then value else .var x, progress)
  | .abs x ty body =>
    if x = name then (.abs x ty body, progress)
    else if avoid.contains x then
      let (fresh, progress) := progress.renameBinder x
      let (body, progress) := (body.rename x fresh).substitute name value avoid progress
      (.abs fresh ty body, progress)
    else
      let (body, progress) := body.substitute name value avoid progress
      (.abs x ty body, progress)
  | .app fn arg =>
    let (fn, progress) := fn.substitute name value avoid progress
    let (arg, progress) := arg.substitute name value avoid progress
    (.app fn arg, progress)
termination_by t.size
decreasing_by
  all_goals simp only [size, size_rename]; omega

end Redex.Term
