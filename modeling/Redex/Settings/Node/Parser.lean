import Redex.Settings.Lexeme.Lexer
import Redex.Settings.Node
import Redex.Settings.Value

/-! # The nodes of a document

    The lexemes of a document spell one node.  Collections are blocks, by indentation, or
    flows, in brackets.  Nodes may be left out where a key, a colon, a dash or a comma shows
    that one should be there; such a node is null. -/

namespace Redex.Settings

/-! ### States -/

/-- A name that a node was given, and the node, or its outline while it is read. -/
structure Anchor where
  name : String
  number : Nat
  inside : Bool
  node : Node

/-- What is left of a document, and what its beginning declares. -/
structure Reading where
  lexemes : List Lexeme
  /-- What stops reading behind the lexemes. -/
  stop : Malformed
  /-- The anchors so far, the last one first. -/
  anchors : List Anchor := []
  /-- The short forms for the start of tags. -/
  handles : List (String × String) := []

/-- Reading of a part of a document. -/
abbrev Read := StateT Reading (Except Malformed)

/-- The lexeme that comes next. -/
def peek : Read Lexeme := do
  match (← get).lexemes with
  | lexeme :: _ => return lexeme
  | [] => throw (← get).stop

/-- Passes over a lexeme. -/
def pass : Read Unit :=
  modify fun reading => { reading with lexemes := reading.lexemes.drop 1 }

/-- A problem of the layout met on a line while reading what starts on another one.  The start
    is reported, unless it is on the first line. -/
def refuse {α : Type} (start line : Nat) (problem : Problem) : Read α :=
  throw ⟨if start = 0 then line else start, problem⟩

/-! ### Anchors and tags -/

/-- Gives a name to a node. -/
def addAnchor (name : Option String) (inside : Bool) (node : Node) : Read Unit :=
  match name with
  | none => return
  | some name => modify fun reading =>
    { reading with
      anchors := ⟨name, reading.anchors.length, inside, node⟩ :: reading.anchors }

/-- Reads what a collection holds.  While it is read, its anchor stands for its outline. -/
def anchored (name : Option String) (outline : Node) (content : Read Node) : Read Node := do
  let number := (← get).anchors.length
  addAnchor name true outline
  let node ← content
  if name.isSome then
    modify fun reading =>
      { reading with
        anchors := reading.anchors.map fun anchor =>
          if anchor.number = number then { anchor with inside := false, node } else anchor }
  return node

/-- The node that a reference stands for. -/
def referred (line : Nat) (name : String) : Read Node := do
  match (← get).anchors.find? (·.name = name) with
  | some anchor => return .reference (line + 1) name anchor.inside anchor.node
  | none => throw ⟨0, .unknownAnchor name⟩

/-- What stands before a node: the line where it starts, its anchor, and its tag with the line
    of that, in any order. -/
def readProperties : Read (Nat × Option String × Option (Nat × String × String)) := do
  let first ← peek
  match first.kind with
  | .anchor name =>
    pass
    let second ← peek
    match second.kind with
    | .tag handle rest =>
      pass
      return (first.line, some name, some (second.line, handle, rest))
    | _ => return (first.line, some name, none)
  | .tag handle rest =>
    pass
    let second ← peek
    match second.kind with
    | .anchor name =>
      pass
      return (first.line, some name, some (first.line, handle, rest))
    | _ => return (first.line, none, some (first.line, handle, rest))
  | _ => return (first.line, none, none)

/-- The tags of the format itself, which are written with two exclamation marks. -/
def commonTags : String := "tag:yaml.org,2002:"

/-- The short form of a tag. -/
def shortTag (tag : String) : String :=
  if tag.startsWith commonTags then "!!" ++ (tag.drop commonTags.length).toString else tag

/-- The tag of a node in its short form, if it has one.  A single exclamation mark is none. -/
def readTag (start : Nat) (tag : Option (Nat × String × String)) : Read (Option String) := do
  match tag with
  | none => return none
  | some (line, handle, rest) =>
    if handle.isEmpty then return some (shortTag rest)
    else
      match (← get).handles.lookup handle with
      | some uri => return some (shortTag (uri ++ rest))
      | none => refuse start line .undefinedHandle

/-- The tag of a node, unless it says nothing. -/
def chosenTag (tag : Option String) (default : String) : String :=
  match tag with
  | none => default
  | some tag => if tag = "!" then default else tag

/-! ### Nodes -/

mutual

/-- A node.  `block` says whether it may be a block, and `flush` whether the items of a block
    sequence may be indented no deeper than what is around it.  Of any three calls below one
    another one takes a lexeme, so that three times their number is `fuel` enough. -/
def readNode : Nat → Bool → Bool → Read Node
  | 0, _, _ => do throw (← get).stop
  | fuel + 1, block, flush => do
    let first ← peek
    match first.kind with
    | .reference name =>
      pass
      referred first.line name
    | _ =>
      let (start, anchor, tag) ← readProperties
      let lexeme ← peek
      let tag ← readTag start tag
      let line := start + 1
      let sequence (content : Read (List Node)) : Read Node :=
        let tag := chosenTag tag "!!seq"
        anchored anchor (.sequence line tag []) (return .sequence line tag (← content))
      let mapping (content : Read (List (Node × Node))) : Read Node :=
        let tag := chosenTag tag "!!map"
        anchored anchor (.mapping line tag []) (return .mapping line tag (← content))
      let scalar (text default : String) : Read Node := do
        let node : Node := .scalar line (chosenTag tag default) text
        addAnchor anchor false node
        return node
      match lexeme.kind with
      | .scalar plain text =>
        pass
        scalar text (if plain then plainTag text else "!!str")
      | .flowSequence =>
        pass
        sequence (flowItems fuel lexeme.line true)
      | .flowMapping =>
        pass
        mapping (flowPairs fuel lexeme.line true)
      | kind =>
        if flush && kind == .item then sequence (flushItems fuel)
        else if block && kind == .blockSequence then
          pass
          sequence (blockItems fuel lexeme.line)
        else if block && kind == .blockMapping then
          pass
          mapping (blockPairs fuel lexeme.line)
        else if anchor.isSome || tag.isSome then scalar "" "!!null"
        else refuse start lexeme.line .missingNode

/-- A node that may be left out before some lexemes. -/
def readOptional : Nat → Bool → Nat → List LexemeKind → Read Node
  | 0, _, _, _ => do throw (← get).stop
  | fuel + 1, block, line, before => do
    if before.contains (← peek).kind then return .empty (line + 1)
    else readNode fuel block block

/-- The items of a block sequence that starts on a line. -/
def blockItems : Nat → Nat → Read (List Node)
  | 0, _ => do throw (← get).stop
  | fuel + 1, start => do
    let lexeme ← peek
    match lexeme.kind with
    | .item =>
      pass
      let item ←
        if [.item, .blockEnd].contains (← peek).kind then pure (.empty (lexeme.line + 1))
        else readNode fuel true false
      return item :: (← blockItems fuel start)
    | .blockEnd =>
      pass
      return []
    | _ => refuse start lexeme.line .missingBlockItem

/-- The items of a block sequence without indentation of its own. -/
def flushItems : Nat → Read (List Node)
  | 0 => do throw (← get).stop
  | fuel + 1 => do
    let lexeme ← peek
    match lexeme.kind with
    | .item =>
      pass
      let item ←
        if [.item, .key, .value, .blockEnd].contains (← peek).kind then
          pure (.empty (lexeme.line + 1))
        else readNode fuel true false
      return item :: (← flushItems fuel)
    | _ => return []

/-- The entries of a block mapping that starts on a line. -/
def blockPairs : Nat → Nat → Read (List (Node × Node))
  | 0, _ => do throw (← get).stop
  | fuel + 1, start => do
    let lexeme ← peek
    match lexeme.kind with
    | .key =>
      pass
      let key ← readOptional fuel true lexeme.line [.key, .value, .blockEnd]
      let lexeme ← peek
      let value ← match lexeme.kind with
        | .value => do
          pass
          readOptional fuel true lexeme.line [.key, .value, .blockEnd]
        | _ => pure (.empty (lexeme.line + 1))
      return (key, value) :: (← blockPairs fuel start)
    | .blockEnd =>
      pass
      return []
    | _ => refuse start lexeme.line .missingBlockKey

/-- The value of an entry in a flow collection. -/
def flowValue : Nat → List LexemeKind → Read Node
  | 0, _ => do throw (← get).stop
  | fuel + 1, before => do
    let lexeme ← peek
    match lexeme.kind with
    | .value =>
      pass
      readOptional fuel false lexeme.line before
    | _ => return .empty (lexeme.line + 1)

/-- The items of a flow sequence that starts on a line.  An item may be an entry of a mapping,
    which then is a mapping of its own.  `first` says whether no comma is due. -/
def flowItems : Nat → Nat → Bool → Read (List Node)
  | 0, _, _ => do throw (← get).stop
  | fuel + 1, start, first => do
    let lexeme ← peek
    if !first && lexeme.kind != .flowSequenceEnd then
      if lexeme.kind == .comma then pass
      else refuse start lexeme.line .unclosedFlowSequence
    let lexeme ← peek
    match lexeme.kind with
    | .flowSequenceEnd =>
      pass
      return []
    | .key =>
      pass
      let next ← peek
      let key ←
        if [.value, .comma, .flowSequenceEnd].contains next.kind then do
          pass
          pure (.empty (next.line + 1))
        else readNode fuel false false
      let value ← flowValue fuel [.comma, .flowSequenceEnd]
      let item := .mapping (lexeme.line + 1) "!!map" [(key, value)]
      return item :: (← flowItems fuel start false)
    | _ =>
      let item ← readNode fuel false false
      return item :: (← flowItems fuel start false)

/-- The entries of a flow mapping that starts on a line.  `first` says whether no comma is
    due. -/
def flowPairs : Nat → Nat → Bool → Read (List (Node × Node))
  | 0, _, _ => do throw (← get).stop
  | fuel + 1, start, first => do
    let lexeme ← peek
    if !first && lexeme.kind != .flowMappingEnd then
      if lexeme.kind == .comma then pass
      else refuse start lexeme.line .unclosedFlowMapping
    let lexeme ← peek
    match lexeme.kind with
    | .flowMappingEnd =>
      pass
      return []
    | .key =>
      pass
      let key ← readOptional fuel false lexeme.line [.value, .comma, .flowMappingEnd]
      let value ← flowValue fuel [.comma, .flowMappingEnd]
      return (key, value) :: (← flowPairs fuel start false)
    | _ =>
      let key ← readNode fuel false false
      let next ← peek
      return (key, .empty (next.line + 1)) :: (← flowPairs fuel start false)

end

/-! ### Documents -/

/-- The handles that need no declaration. -/
def commonHandles : List (String × String) :=
  [("!", "!"), ("!!", commonTags)]

/-- The directives before a document.  `versioned` says whether one gave the version. -/
def readDirectives : Nat → Bool → Read Unit
  | 0, _ => return
  | fuel + 1, versioned => do
    let lexeme ← peek
    match lexeme.kind with
    | .version major minor =>
      if versioned then refuse 0 lexeme.line .repeatedVersion
      else if major != 1 || minor != 1 then refuse 0 lexeme.line .incompatibleVersion
      else
        pass
        readDirectives fuel true
    | .handle name uri =>
      if ((← get).handles.lookup name).isSome then refuse 0 lexeme.line .repeatedHandle
      else
        modify fun reading => { reading with handles := (name, uri) :: reading.handles }
        pass
        readDirectives fuel versioned
    | _ => return

/-- Whether a lexeme stands outside of documents. -/
def LexemeKind.isOutside : LexemeKind → Bool
  | .version .. => true
  | .handle .. => true
  | .documentStart => true
  | .streamEnd => true
  | _ => false

/-- The first document, if there is one.  The lexeme behind it is looked at, so that a problem
    there is one of the document. -/
def readDocument (fuel : Nat) : Read (Option Node) := do
  let lexeme ← peek
  if lexeme.kind == .streamEnd then return none
  else
    if lexeme.kind.isOutside then
      readDirectives fuel false
      let lexeme ← peek
      if lexeme.kind != .documentStart then refuse 0 lexeme.line .missingDocumentStart
      pass
    modify fun reading => { reading with handles := reading.handles ++ commonHandles }
    let next ← peek
    let node ←
      if lexeme.kind.isOutside && (next.kind.isOutside || next.kind == .documentEnd) then
        pure (.empty (next.line + 1))
      else readNode fuel true false
    discard peek
    return some node

/-- The root of the first document of a text, if there is one. -/
def Node.ofDocument (text : String) : Except Malformed (Option Node) :=
  let (lexemes, stop) := Lexeme.scan text
  -- the end of a text is a lexeme, so that reading stops behind it only for a problem
  let stop := stop.getD ⟨0, .missingNode⟩
  (readDocument (3 * lexemes.length + 3)).run' { lexemes, stop }

end Redex.Settings
