import Redex.Batch
import Redex.Bench
import Redex.Command.Flag
import Redex.Config.Load
import Redex.Session
import Redex.Text.Duration
import Redex.Text.Lines

/-! # The command line

    `Command.run` maps the arguments of the program, the files it sees and its standard input
    to an exit code, what is printed, and the files afterwards.  The only thing it has to be
    told is how long the timings of a bench took. -/

namespace Redex.Command

def appName : String := "golambda"

def version : String := "0.1.0"

/-- What a command leaves behind. -/
structure Outcome where
  code : UInt8
  printed : Printed := {}
  files : Files

/-- Where a command runs. -/
structure Setting where
  files : Files
  stdin : String := ""
  /-- How long a timing took in nanoseconds, if it was taken. -/
  clock : Timing → Option Int64 := fun _ => none

/-- The summary of commands. -/
def summary : String :=
  appName ++ " " ++ version ++ "\n\nUsage:\n"
    ++ "  " ++ appName
    ++ " run [-typed] [-config file] [-stats] [file]   Reduce every line of file (or stdin).\n"
    ++ "  " ++ appName
    ++ " repl [-typed] [-config file]                 Start the interactive loop.\n"
    ++ "  " ++ appName
    ++ " bench [-typed] [-config file] <expr> <n>     Time each stage n times.\n"
    ++ "  " ++ appName
    ++ " version                                      Print the version.\n\n"

/-! ### Flags of the commands -/

/-- The flags that every command has, and the one that only `run` has. -/
def flagsOf (withStats : Bool) : List Flag :=
  [⟨"config", .text, "YAML config file"⟩,
    ⟨"max-steps", .number, "override the reduction step ceiling"⟩,
    ⟨"no-reduce", .switch, "stop after parsing and type checking"⟩]
    ++ (if withStats then [⟨"stats", .switch, "print reduction statistics to stderr"⟩] else [])
    ++ [⟨"trace", .number, "record up to n rewrite events per line"⟩,
      ⟨"typed", .switch, "parse lines as typed judgements (expr : type)"⟩]

/-- Changes a configuration by flags.  A flag can switch the typed mode on and reduction off,
    but not the other way round, and only positive numbers count. -/
def override (config : Config) (values : List (String × Flag.Value)) : Config :=
  let maxSteps := Flag.number values "max-steps"
  let trace := Flag.number values "trace"
  { config with
    mode := if Flag.isOn values "typed" then .typed else config.mode
    reduce := config.reduce && !Flag.isOn values "no-reduce"
    maxSteps := if 0 < maxSteps then maxSteps else config.maxSteps
    trace := if 0 < trace then trace else config.trace }

/-- The configuration that flags ask for, or the report of an error. -/
def configOf (files : Files) (values : List (String × Flag.Value)) : Except String Config :=
  let path := Flag.textD values "config" ""
  match if path.isEmpty then .ok {} else Config.load files path with
  | .error e => .error e.message
  | .ok config =>
    let config := override config values
    match config.issues with
    | [] => .ok config
    | issues => .error (Config.issuesMessage (issues.map (·.message)))

/-- The outcome of a command that only reports an error. -/
def failed (setting : Setting) (code : UInt8) (report : String) : Outcome :=
  { code, printed := { stderr := report ++ "\n" }, files := setting.files }

/-- The outcome of a command whose arguments or configuration are refused. -/
def refused (setting : Setting) (report : String) : Outcome :=
  failed setting 2 (appName ++ ": " ++ report)

/-- The outcome of a command that prints and changes no file. -/
def printed (setting : Setting) (code : UInt8) (printed : Printed) : Outcome :=
  { code, printed, files := setting.files }

/-! ### Reducing lines -/

/-- The report of a line: its output, and its statistics and trace on the other channel. -/
def lineReport (withStats : Bool) (result : LineResult) : Printed :=
  let stats :=
    if withStats then
      "line " ++ toString result.line ++ ": " ++ toString result.stats.steps ++ " steps, "
        ++ toString result.stats.beta ++ " beta, " ++ toString result.stats.alpha ++ " alpha\n"
    else ""
  { stdout := result.output ++ "\n", stderr := stats ++ traceText result.trace }

/-- The lines of a batch: those of the file that the first argument names, or of the standard
    input.  An error comes with its report. -/
def inputLines (setting : Setting) (arguments : List String) : Except String (List String) :=
  let text : Except String String := match arguments with
    | [] => .ok setting.stdin
    | path :: _ =>
      match setting.files.read path with
      | .ok text => .ok text
      | .error .isFolder =>
        .error ("Error reading input: read lines: read " ++ path ++ ": "
          ++ FileError.isFolder.message)
      | .error e => .error ("Error reading file: open " ++ path ++ ": " ++ e.message)
  match text with
  | .error report => .error report
  | .ok text =>
    match Text.linesOfText text with
    | .error e => .error ("Error reading input: read lines: " ++ e.message)
    | .ok lines => .ok lines

/-- Reduces every line of a file or of the standard input. -/
def runLines (setting : Setting) (arguments : List String) : Outcome :=
  match Flag.parse (flagsOf true) arguments with
  | .error e => printed setting 2 { stderr := Flag.refusal "run" (flagsOf true) e }
  | .ok (values, arguments) =>
    match configOf setting.files values with
    | .error report => refused setting report
    | .ok config =>
      match inputLines setting arguments with
      | .error report => failed setting 1 report
      | .ok lines =>
        match config.runBatch lines false with
        | .error .noInput => failed setting 1 (appName ++ ": empty input")
        | .error e => failed setting 1 e.message
        | .ok results =>
          let reports := results.map (lineReport (Flag.isOn values "stats"))
          printed setting 0 (reports.foldl (· ++ ·) {})

/-! ### Sessions -/

/-- The path of the file that keeps the history. -/
def historyPath (files : Files) (history : String) : String :=
  if Path.isAbsolute history then history
  else
    match files.home with
    | some home => Path.join home history
    | none => history

/-- The history in a file, up to the first line that is read in pieces.  A file that cannot be
    read holds none. -/
def loadHistory (files : Files) (path : String) : List String :=
  match files.read path with
  | .ok text => clipHistory (((Text.pieces text).takeWhile (·.whole)).map (·.text))
  | .error _ => []

/-- Writes a history to a file, if that can be written. -/
def saveHistory (files : Files) (path : String) (history : List String) : Files :=
  match files.write path (historyText history) with
  | .ok files => files
  | .error _ => files

/-- What a session prints first. -/
def banner : String :=
  appName ++ " " ++ version
    ++ " REPL\nCtrl+C cancels input, Ctrl+D exits. Type :help for commands.\n"

/-- The configuration of a session, or the outcome of refused arguments. -/
def sessionConfig (setting : Setting) (arguments : List String) : Except Outcome Config :=
  match Flag.parse (flagsOf false) arguments with
  | .error e => .error (printed setting 2 { stderr := Flag.refusal "repl" (flagsOf false) e })
  | .ok (values, _) =>
    match configOf setting.files values with
    | .error report => .error (refused setting report)
    | .ok config => .ok config

/-- Runs a session on the standard input, where each piece of a line counts as a line.  The
    history is read before it and written back behind it. -/
def runSession (setting : Setting) (arguments : List String) : Outcome :=
  match sessionConfig setting arguments with
  | .error outcome => outcome
  | .ok config =>
    let path := historyPath setting.files config.history
    let history := loadHistory setting.files path
    let lines := (Text.pieces setting.stdin).map (·.text)
    let (answers, final) := Session.run { config, history } lines
    { code := 0
      printed := { stdout := banner } ++ answers
      files := saveHistory setting.files path final.history }

/-! ### Timing -/

/-- A row about a timing: its label and, if it was taken, how long all iterations and one of
    them took. -/
def timingRow (clock : Timing → Option Int64) (iterations : Int) (timing : Timing) : String :=
  "  " ++ (match clock timing with
    | none => timing.label
    | some duration =>
      Text.padRight 12 timing.label ++ " " ++ Text.padLeft 12 (Text.durationText duration) ++ "  ("
        ++ Text.durationText (Bench.perOp (Int64.ofInt iterations) duration) ++ "/op)") ++ "\n"

/-- Times the stages of an expression. -/
def runBench (setting : Setting) (arguments : List String) : Outcome :=
  match Flag.parse (flagsOf false) arguments with
  | .error e => printed setting 2 { stderr := Flag.refusal "bench" (flagsOf false) e }
  | .ok (values, [input, count]) =>
    match Text.plainInt count with
    | .error _ => refused setting ("invalid iteration count " ++ Text.quote count)
    | .ok iterations =>
      match configOf setting.files values with
      | .error report => refused setting report
      | .ok config =>
        match config.bench input iterations with
        | .error e => failed setting 1 e.message
        | .ok report =>
          let rows := config.timings.map (timingRow setting.clock report.iterations)
          printed setting 0
            { stdout := report.input ++ ", " ++ toString report.iterations ++ " iterations\n"
                ++ String.join rows }
  | .ok _ => failed setting 2 ("usage: " ++ appName ++ " bench [-typed] <expr> <iterations>")

/-! ### The program -/

/-- The paths of the files that a command reads before it does anything else: that of its
    configuration and, for `run`, that of its input. -/
def pathsRead : List String → List String
  | [] => []
  | command :: arguments =>
    match Flag.parse (flagsOf (command = "run")) arguments with
    | .error _ => []
    | .ok (values, others) =>
      let config := Flag.textD values "config" ""
      (if config.isEmpty then [] else [config]) ++ (if command = "run" then others.take 1 else [])

/-- Runs the program. -/
def run (setting : Setting) (arguments : List String) : Outcome :=
  match arguments with
  | [] => printed setting 2 { stdout := summary }
  | "run" :: arguments => runLines setting arguments
  | "repl" :: arguments => runSession setting arguments
  | "bench" :: arguments => runBench setting arguments
  | "version" :: _ => printed setting 0 { stdout := version ++ "\n" }
  | "-h" :: _ | "--help" :: _ | "help" :: _ => printed setting 0 { stdout := summary }
  | command :: _ =>
    printed setting 2
      { stdout := summary
        stderr := appName ++ ": unknown command " ++ Text.quote command ++ "\n" }

end Redex.Command
