import Redex.Term

/-! # The names of a term

    The free variables of a term, all names in it, the base types of its annotations, and
    equality up to the names of bound variables. -/

namespace Redex.Term

/-- Adds to `free` the variables of a term that neither `bound` nor an abstraction of the
    term binds. -/
def addFree (bound free : NameSet) : Term → NameSet
  | .missing => free
  | .var name => if bound.contains name then free else free.insert name
  | .abs binder _ body => body.addFree (bound.insert binder) free
  | .app fn arg => arg.addFree bound (fn.addFree bound free)

/-- The free variables of a term. -/
def free (t : Term) : NameSet :=
  t.addFree ∅ ∅

/-- Adds every name of a term, variables and binders alike, to a set. -/
def addNames (names : NameSet) : Term → NameSet
  | .missing => names
  | .var name => names.insert name
  | .abs binder _ body => body.addNames (names.insert binder)
  | .app fn arg => arg.addNames (fn.addNames names)

/-- Every name of a term, variables and binders alike. -/
def names (t : Term) : NameSet :=
  t.addNames ∅

/-- Adds the base types of the annotations of a term to a set. -/
def addAnnotationNames (names : NameSet) : Term → NameSet
  | .missing => names
  | .var _ => names
  | .abs _ ty body => body.addAnnotationNames (ty.addNames names)
  | .app fn arg => arg.addAnnotationNames (fn.addAnnotationNames names)

/-- The base types that the annotations of a term mention. -/
def annotationNames (t : Term) : NameSet :=
  t.addAnnotationNames ∅

/-- Whether two terms agree up to the names of their bound variables, where `scope` and
    `scope'` list the binders around them from the inside out.  Bound variables agree if
    their binders stand at the same distance, free variables if they have the same name,
    and annotations if they are equal. -/
def alphaEqIn : List String → List String → Term → Term → Bool
  | _, _, .missing, .missing => true
  | scope, scope', .var x, .var y =>
    match scope.idxOf? x, scope'.idxOf? y with
    | some i, some j => i == j
    | none, none => x == y
    | _, _ => false
  | scope, scope', .abs x ty body, .abs y ty' body' =>
    ty == ty' && alphaEqIn (x :: scope) (y :: scope') body body'
  | scope, scope', .app fn arg, .app fn' arg' =>
    alphaEqIn scope scope' fn fn' && alphaEqIn scope scope' arg arg'
  | _, _, _, _ => false

/-- Whether two terms are equal up to the names of their bound variables. -/
def alphaEq (t u : Term) : Bool :=
  alphaEqIn [] [] t u

end Redex.Term
