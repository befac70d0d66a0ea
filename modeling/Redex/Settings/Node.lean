/-! # Nodes of a settings document

    A settings document is a tree of scalars, sequences and mappings, each with a tag and the
    line where it starts, counted from 1.  A node with an anchor may be used again elsewhere,
    even within itself. -/

namespace Redex.Settings

/-- A node of a settings document. -/
inductive Node where
  | scalar (line : Nat) (tag text : String)
  | sequence (line : Nat) (tag : String) (items : List Node)
  | mapping (line : Nat) (tag : String) (entries : List (Node × Node))
  /-- The node that has an anchor, used again.  If the node holds this reference, `inside` is
      true and only the outline of the node is here, without what it holds. -/
  | reference (line : Nat) (name : String) (inside : Bool) (target : Node)

namespace Node

/-- The line where a node starts. -/
def line : Node → Nat
  | .scalar line _ _ => line
  | .sequence line _ _ => line
  | .mapping line _ _ => line
  | .reference line _ _ _ => line

/-- The tag of a node.  A reference has none of its own. -/
def tag : Node → String
  | .scalar _ tag _ => tag
  | .sequence _ tag _ => tag
  | .mapping _ tag _ => tag
  | .reference .. => ""

/-- The text of a scalar or the name of a reference; empty for a collection. -/
def text : Node → String
  | .scalar _ _ text => text
  | .reference _ name _ _ => name
  | _ => ""

/-- Whether two nodes are of the same kind. -/
def sameKind : Node → Node → Bool
  | .scalar .., .scalar .. => true
  | .sequence .., .sequence .. => true
  | .mapping .., .mapping .. => true
  | .reference .., .reference .. => true
  | _, _ => false

/-- The node itself, if this is a reference. -/
def resolved : Node → Node
  | .reference _ _ _ target => target.resolved
  | node => node

def isMapping : Node → Bool
  | .mapping .. => true
  | _ => false

/-- A node that is left out. -/
def empty (line : Nat) : Node :=
  .scalar line "!!null" ""

end Node

end Redex.Settings
