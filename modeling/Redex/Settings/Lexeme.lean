/-! # Lexemes of a settings document

    A document is a sequence of lexemes.  Some are written, such as scalars and brackets;
    others come from the layout: where a block starts and ends, and where the key of a
    mapping starts. -/

namespace Redex.Settings

/-- What a lexeme is. -/
inductive LexemeKind where
  | streamEnd
  /-- The version that a document asks for. -/
  | version (major minor : Nat)
  /-- A short form for the start of tags. -/
  | handle (name uri : String)
  | documentStart
  | documentEnd
  | blockSequence
  | blockMapping
  | blockEnd
  | flowSequence
  | flowSequenceEnd
  | flowMapping
  | flowMappingEnd
  /-- The dash of a block sequence. -/
  | item
  | comma
  | key
  | value
  | anchor (name : String)
  /-- Another place for the node with an anchor. -/
  | reference (name : String)
  /-- A tag by its handle, which may be empty, and the rest. -/
  | tag (handle rest : String)
  | scalar (plain : Bool) (text : String)
deriving DecidableEq, Repr

/-- A lexeme and the line where it starts, counted from 0. -/
structure Lexeme where
  line : Nat
  kind : LexemeKind
deriving DecidableEq, Repr

end Redex.Settings
