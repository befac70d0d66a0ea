import Redex.Config
import Redex.Settings.Node.Parser
import Redex.Text.Quoted

/-! # Configurations from settings documents

    A settings document is a mapping from the names of settings to their values.  A setting
    that is left out, or has no value, keeps its default.  Names are not repeated, and
    unknown names and values of the wrong type are refused, all of them in one report.

    Under the name `<<` a document may take over the settings of other mappings, as far as it
    does not have them itself. -/

namespace Redex.Config

open Settings

/-- The settings a document may hold. -/
inductive Setting where
  | typed
  | reduce
  | maxSteps
  | workers
  | trace
  | history
deriving DecidableEq, Repr

/-- The setting with a given name. -/
def Setting.ofName? : String → Option Setting
  | "typed" => some .typed
  | "reduce" => some .reduce
  | "max_steps" => some .maxSteps
  | "workers" => some .workers
  | "trace" => some .trace
  | "history" => some .history
  | _ => none

/-- A part of a document that does not fit. -/
inductive Fault where
  /-- No setting has this name. -/
  | unknownSetting (line : Nat) (name : String)
  /-- A value with this tag and text has the wrong type. -/
  | mistyped (line : Nat) (tag text expected : String)
  /-- A key stands in a mapping twice. -/
  | repeated (line : Nat) (name : String) (before : Nat)
  /-- Two keys of a mapping name the same setting. -/
  | alreadySet (line : Nat) (name : String)
deriving DecidableEq, Repr

/-- A text cut to its first seven bytes if it has more than ten. -/
def abridge (text : String) : String :=
  if 10 < text.utf8ByteSize then Text.decodeUtf8 ((Text.encodeUtf8 text).take 7) ++ "..." else text

/-- The report of a fault.  Values tagged as collections are shown by their tag alone. -/
def Fault.message : Fault → String
  | .unknownSetting line name =>
    "line " ++ toString line ++ ": field " ++ name ++ " not found in type driver.configFile"
  | .mistyped line tag text expected =>
    let shown := if tag ∈ ["!!seq", "!!map"] then text else " `" ++ abridge text ++ "`"
    "line " ++ toString line ++ ": cannot unmarshal " ++ tag ++ shown ++ " into " ++ expected
  | .repeated line name before =>
    "line " ++ toString line ++ ": mapping key " ++ Text.quote name ++ " already defined at line "
      ++ toString before
  | .alreadySet line name =>
    "line " ++ toString line ++ ": field " ++ name ++ " already set in type driver.configFile"

/-- Why a document gives no configuration. -/
inductive DocumentError where
  | malformed (fault : Malformed)
  | unfit (parts : List Fault)
  | invalid (issues : List Issue)
deriving DecidableEq, Repr

/-- The report of an error. -/
def DocumentError.message : DocumentError → String
  | .malformed fault => "parse: yaml: " ++ fault.message
  | .unfit parts =>
    "parse: yaml: unmarshal errors:" ++ String.join (parts.map ("\n  " ++ ·.message))
  | .invalid issues => issuesMessage (issues.map (·.message))

/-! ### Values of settings -/

/-- Every pair of keys with the same text, by the later and the earlier line. -/
def repeatedKeys : List (Node × Node) → List Fault
  | [] => []
  | (key, _) :: later =>
    (later.filter fun (other, _) => other.sameKind key && other.text == key.text).map
      (fun (other, _) => .repeated other.line other.text key.line) ++ repeatedKeys later

/-- The faults of a node where a value of another type is expected.  In a mapping, repeated keys
    are reported first. -/
def mistyped (node : Node) (expected : String) : List Fault :=
  match node with
  | .scalar line tag text => [.mistyped line tag text expected]
  | .sequence line tag _ => [.mistyped line tag "" expected]
  | .mapping line tag entries =>
    match repeatedKeys entries with
    | [] => [.mistyped line tag "" expected]
    | faults => faults
  | .reference _ _ _ target => mistyped target expected

/-- Reads a scalar: its value, unless it has none or does not fit, and the faults.  Where a
    value may lack, the type expected of a collection that is tagged as null shows it. -/
def takeScalar {α : Type} (node : Node) (expected : String) (optional : Bool)
    (read : String → Value → Option α) : Except Problem (Option α × List Fault) := do
  let node := node.resolved
  match node with
  | .scalar _ tag text =>
    match ← taggedValue tag text with
    | .null => return (none, [])
    | value =>
      let result := read text value
      return (result, if result.isSome then [] else mistyped node expected)
  | _ =>
    let expected := if optional && node.tag == "!!null" then "*" ++ expected else expected
    return (none, mistyped node expected)

/-- The words for truth values besides `true` and `false`. -/
def wordBool? (text : String) : Option Bool :=
  if text ∈ ["y", "Y", "yes", "Yes", "YES", "on", "On", "ON"] then some true
  else if text ∈ ["n", "N", "no", "No", "NO", "off", "Off", "OFF"] then some false
  else none

/-- A truth value. -/
def takeBool (node : Node) : Except Problem (Option Bool × List Fault) :=
  takeScalar node "bool" true fun _ value =>
    match value with
    | .bool value => some value
    | .str text => wordBool? text
    | _ => none

/-- An integer of 64 bits. -/
def takeInt (node : Node) : Except Problem (Option Int × List Fault) :=
  takeScalar node "int" true fun _ value =>
    match value with
    | .int value => if value < Text.signedBound then some value else none
    | .float whole => whole
    | _ => none

/-- A text.  What is no string is taken as it is written. -/
def takeText (node : Node) : Except Problem (Option String × List Fault) :=
  takeScalar node "string" false fun text value =>
    match value with
    | .str text => some text
    | _ => some text

/-- Takes the value of a setting over into a configuration. -/
def set (config : Config) (setting : Setting) (node : Node) :
    Except Problem (Config × List Fault) := do
  match setting with
  | .typed =>
    let (value, faults) ← takeBool node
    let mode := value.elim config.mode fun typed => if typed then .typed else .untyped
    return ({ config with mode }, faults)
  | .reduce =>
    let (value, faults) ← takeBool node
    return ({ config with reduce := value.getD config.reduce }, faults)
  | .maxSteps =>
    let (value, faults) ← takeInt node
    return ({ config with maxSteps := value.getD config.maxSteps }, faults)
  | .workers =>
    let (value, faults) ← takeInt node
    return ({ config with workers := value.or config.workers }, faults)
  | .trace =>
    let (value, faults) ← takeInt node
    return ({ config with trace := value.getD config.trace }, faults)
  | .history =>
    let (value, faults) ← takeText node
    return ({ config with history := (value.filter (!·.isEmpty)).getD config.history }, faults)

/-! ### Merging -/

/-- Whether a key merges other mappings. -/
def isMerge : Node → Bool
  | .scalar _ tag text => tag == "!!merge" && text == "<<"
  | _ => false

/-- The entries of a mapping, or a problem with what should be one. -/
abbrev Layer := Except Problem (List (Node × Node))

mutual

/-- The mappings that a node brings into a configuration, itself first.  Those that a mapping
    merges follow it, unless its keys are repeated. -/
def layers : Node → List Layer
  | .mapping _ _ entries =>
    .ok entries :: (if (repeatedKeys entries).isEmpty then mergedLayers entries else [])
  | .sequence _ _ items => itemLayers items
  | .reference _ name inside target =>
    if !target.isMapping then [.error .unfitMerge]
    else if inside then [.error (.selfContained name)]
    else layers target
  | .scalar .. => [.error .unfitMerge]

/-- The layers that a mapping merges. -/
def mergedLayers : List (Node × Node) → List Layer
  | [] => []
  | (key, value) :: later => if isMerge key then layers value else mergedLayers later

/-- The layers of a sequence, whose items have to be mappings. -/
def itemLayers : List Node → List Layer
  | [] => []
  | item :: later =>
    (match item with
      | .sequence .. => [.error .unfitMerge]
      | item => layers item) ++ itemLayers later

end

/-! ### Documents -/

/-- A configuration as far as a document is taken over. -/
structure Taking where
  config : Config := {}
  faults : List Fault := []
  /-- The settings that the mapping at hand has set. -/
  done : List Setting := []
  /-- While mappings are merged, the names that are already taken. -/
  taken : Option (List String) := none

/-- Takes over an entry, unless its name is taken or null.  `name` is the name of `key`. -/
def Taking.addEntry (taking : Taking) (key value : Node) (name : String) :
    Except Problem Taking := do
  if taking.taken.any (·.contains name) then return taking
  else
    let taking := { taking with taken := taking.taken.map (name :: ·) }
    match Setting.ofName? name with
    | none =>
      return { taking with faults := taking.faults ++ [.unknownSetting key.line name] }
    | some setting =>
      if taking.done.contains setting then
        return { taking with faults := taking.faults ++ [.alreadySet key.line name] }
      else
        let (config, faults) ← taking.config.set setting value
        return { taking with
          config
          faults := taking.faults ++ faults
          done := setting :: taking.done }

/-- Takes over the entries of a mapping. -/
def Taking.addEntries (taking : Taking) : List (Node × Node) → Except Problem Taking
  | [] => .ok taking
  | (key, value) :: later => do
    if isMerge key then taking.addEntries later
    else
      match ← takeText key with
      | (some name, _) => (← taking.addEntry key value name).addEntries later
      | (none, faults) =>
        let taking := { taking with faults := taking.faults ++ faults }
        taking.addEntries later

/-- Takes over a mapping. -/
def Taking.addLayer (taking : Taking) (entries : List (Node × Node)) : Except Problem Taking :=
  match repeatedKeys entries with
  | [] => { taking with done := [] }.addEntries entries
  | faults => .ok { taking with faults := taking.faults ++ faults }

/-- The keys of a mapping that are strings. -/
def stringKeys (entries : List (Node × Node)) : List String :=
  entries.filterMap fun (key, _) =>
    match key.resolved with
    | .scalar _ tag text =>
      match taggedValue tag text with
      | .ok (.str text) => some text
      | _ => none
    | _ => none

/-- Takes over the root of a document. -/
def takeRoot (node : Node) : Except Problem Taking := do
  match node with
  | .mapping _ _ entries =>
    let taking ← ({} : Taking).addLayer entries
    (layers node).tail.foldlM (fun taking layer => do taking.addLayer (← layer))
      { taking with taken := some (stringKeys entries) }
  | node =>
    let (_, faults) ← takeScalar node "driver.configFile" false fun _ _ => (none : Option Unit)
    return { faults }

/-- The configuration of the root of a document, on top of the defaults. -/
def ofNode (node : Node) : Except DocumentError Config :=
  match takeRoot node with
  | .error problem => .error (.malformed ⟨0, problem⟩)
  | .ok taking =>
    if !taking.faults.isEmpty then .error (.unfit taking.faults)
    else if !taking.config.issues.isEmpty then .error (.invalid taking.config.issues)
    else .ok taking.config

/-- The configuration of a settings document. -/
def ofDocument (text : String) : Except DocumentError Config :=
  match Node.ofDocument text with
  | .error fault => .error (.malformed fault)
  | .ok node => ofNode (node.getD (.empty 1))

end Redex.Config
