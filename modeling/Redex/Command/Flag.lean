import Redex.Text.Numeral
import Redex.Text.Quoted

/-! # Flags

    The options of a command, written `-name` or `--name` before its other arguments.  A
    switch takes a value only in the form `-name=value`; any other flag takes one in that
    form or as the next argument. -/

namespace Redex.Command

/-- What a flag takes. -/
inductive Flag.Kind where
  | switch
  | text
  | number
deriving DecidableEq, Repr

/-- A flag of a command. -/
structure Flag where
  name : String
  kind : Flag.Kind
  help : String
deriving DecidableEq, Repr

/-- The value given to a flag. -/
inductive Flag.Value where
  | switch (on : Bool)
  | text (value : String)
  | number (value : Int)
deriving DecidableEq, Repr

/-- Why arguments are refused. -/
inductive FlagError where
  | undefined (name : String)
  | needsArgument (name : String)
  | badForm (argument : String)
  | badNumber (value name : String) (error : Text.NumeralError)
  | badSwitch (value name : String)
  /-- The usage was asked for. -/
  | help
deriving DecidableEq, Repr

/-- The report of an error; there is none where the usage was asked for. -/
def FlagError.message? : FlagError → Option String
  | .undefined name => some ("flag provided but not defined: -" ++ name)
  | .needsArgument name => some ("flag needs an argument: -" ++ name)
  | .badForm argument => some ("bad flag syntax: " ++ argument)
  | .badNumber value name error =>
    some ("invalid value " ++ Text.quote value ++ " for flag -" ++ name ++ ": " ++ error.message)
  | .badSwitch value name =>
    some ("invalid boolean value " ++ Text.quote value ++ " for -" ++ name ++ ": parse error")
  | .help => none

namespace Flag

/-- The state that a word puts a switch in. -/
def switchState? (word : String) : Option Bool :=
  if word ∈ ["1", "t", "T", "true", "TRUE", "True"] then some true
  else if word ∈ ["0", "f", "F", "false", "FALSE", "False"] then some false
  else none

/-- The flag and the value of an argument that is one: behind one dash or two, a name and
    possibly an equals sign and a value.  There is none if the name is empty or starts with a
    dash. -/
def splitArgument (argument : String) : Option (String × Option String) :=
  let body := match argument.toList with
    | '-' :: '-' :: body => body
    | '-' :: body => body
    | body => body
  match body with
  | [] => none
  | c :: rest =>
    if c == '-' || c == '=' then none
    else
      let name := c :: rest.takeWhile (· != '=')
      let value := match rest.dropWhile (· != '=') with
        | [] => none
        | _ :: value => some (String.ofList value)
      some (String.ofList name, value)

/-- Whether flags end before an argument. -/
def endsFlags (argument : String) : Bool :=
  argument.utf8ByteSize < 2 || !argument.startsWith "-"

/-- The value of a flag that takes a text or a number. -/
def valueOf (flag : Flag) (value : String) : Except FlagError Value :=
  match flag.kind with
  | .number =>
    match Text.prefixedInt value with
    | .ok n => .ok (.number n)
    | .error e => .error (.badNumber value flag.name e)
  | _ => .ok (.text value)

/-- The values given to flags, and the arguments behind the flags. -/
abbrev Parsed := List (String × Value) × List String

/-- Puts a value in front of those given later. -/
def Parsed.cons (name : String) (value : Value) (parsed : Parsed) : Parsed :=
  ((name, value) :: parsed.1, parsed.2)

/-- The values given to flags, in order, and the arguments behind the flags. -/
def parse (flags : List Flag) : List String → Except FlagError Parsed
  | [] => .ok ([], [])
  | argument :: rest =>
    if endsFlags argument then .ok ([], argument :: rest)
    else if argument = "--" then .ok ([], rest)
    else
      match splitArgument argument with
      | none => .error (.badForm argument)
      | some (name, given) =>
        match flags.find? (·.name = name) with
        | none => .error (if name = "help" ∨ name = "h" then .help else .undefined name)
        | some flag =>
          if flag.kind = .switch then
            match switchState? (given.getD "true") with
            | none => .error (.badSwitch (given.getD "") name)
            | some on => (parse flags rest).map (.cons name (.switch on))
          else
            match given, rest with
            | some value, rest =>
              match flag.valueOf value with
              | .error e => .error e
              | .ok value => (parse flags rest).map (.cons name value)
            | none, [] => .error (.needsArgument name)
            | none, value :: rest =>
              match flag.valueOf value with
              | .error e => .error e
              | .ok value => (parse flags rest).map (.cons name value)

/-! ### Values by name -/

/-- The last value given to a flag. -/
def last? (values : List (String × Value)) (name : String) : Option Value :=
  (values.reverse.find? (·.1 = name)).map (·.2)

/-- Whether a switch is on. -/
def isOn (values : List (String × Value)) (name : String) : Bool :=
  last? values name = some (.switch true)

/-- The number given to a flag, or 0. -/
def number (values : List (String × Value)) (name : String) : Int :=
  match last? values name with
  | some (.number n) => n
  | _ => 0

/-- The text given to a flag, or a default. -/
def textD (values : List (String × Value)) (name default : String) : String :=
  match last? values name with
  | some (.text text) => text
  | _ => default

/-! ### Usage -/

/-- The lines about a flag in the usage of a command. -/
def usageOf (flag : Flag) : String :=
  let takes := match flag.kind with
    | .switch => ""
    | .text => " string"
    | .number => " int"
  "  -" ++ flag.name ++ takes ++ "\n    \t" ++ flag.help ++ "\n"

/-- The usage of a command. -/
def usage (command : String) (flags : List Flag) : String :=
  "Usage of " ++ command ++ ":\n" ++ String.join (flags.map usageOf)

/-- What a command prints when its arguments are refused. -/
def refusal (command : String) (flags : List Flag) (error : FlagError) : String :=
  (match error.message? with
    | some message => message ++ "\n"
    | none => "") ++ usage command flags

end Flag

end Redex.Command
