import Redex.Pipeline

/-! # Interactive sessions

    A session reads lines until a line asks it to stop or the input ends.  A line is a
    command, which may change the configuration for the lines behind it, or a phrase, which
    is answered with its result.  Nothing else of a line is remembered but its text in the
    history. -/

namespace Redex

/-! ### History -/

/-- The most entries that a history holds. -/
def historyLimit : Nat := 1000

/-- A history without its oldest entries, as far as it holds too many. -/
def clipHistory (history : List String) : List String :=
  history.drop (history.length - historyLimit)

/-- Adds an entry to a history, unless it repeats the last one. -/
def addHistory (history : List String) (entry : String) : List String :=
  if history.getLast? = some entry then history else clipHistory (history ++ [entry])

/-- The text of a history: one entry to a line. -/
def historyText (history : List String) : String :=
  String.join (history.map (· ++ "\n"))

/-! ### Lines -/

/-- What a line asks of a session. -/
inductive Request where
  | blank
  | quit
  | help
  | typed
  | untyped
  | trace
  /-- A colon with no command behind it. -/
  | unknown
  | phrase (text : String)
deriving DecidableEq, Repr

/-- What a line without white space around it asks.  Commands may be written in any
    case. -/
def Request.ofTrimmed (text : String) : Request :=
  if text.isEmpty then .blank
  else
    let word := String.ofList (text.toList.map Text.toLowerAscii)
    if word ∈ [":quit", "quit", "exit"] then .quit
    else if word = ":help" then .help
    else if word = ":typed" then .typed
    else if word = ":untyped" then .untyped
    else if word = ":trace" then .trace
    else if text.startsWith ":" then .unknown
    else .phrase text

/-- A line without the white space around it. -/
def trimLine (line : String) : String :=
  String.ofList (Text.trimBlank line.toList)

/-! ### Answers -/

/-- What is printed, by channel. -/
structure Printed where
  stdout : String := ""
  stderr : String := ""
deriving DecidableEq, Repr

/-- One text printed behind another. -/
def Printed.append (first second : Printed) : Printed :=
  ⟨first.stdout ++ second.stdout, first.stderr ++ second.stderr⟩

instance : Append Printed :=
  ⟨Printed.append⟩

def red (text : String) : String :=
  "\x1b[31m" ++ text ++ "\x1b[0m"

def blue (text : String) : String :=
  "\x1b[94m" ++ text ++ "\x1b[0m"

/-- The input with a mark under the character that a lexical error is about; empty for any
    other error. -/
def caret (input : String) (error : StageError) : String :=
  match error.cause with
  | .lex e =>
    if e.pos = 0 then ""
    else "  " ++ input ++ "\n  " ++ String.ofList (List.replicate (e.pos - 1) ' ') ++ "^"
  | _ => ""

/-- The lines of a trace. -/
def traceText (trace : Option (List Reduction.Event)) : String :=
  String.join ((trace.getD []).map fun event => "  " ++ event.describe ++ "\n")

/-- The summary of commands. -/
def sessionHelp : String :=
  "\nREPL commands:\n"
    ++ "  :quit      Exit the REPL (also quit, exit)\n"
    ++ "  :typed     Parse judgements (expr : type)\n"
    ++ "  :untyped   Parse plain expressions\n"
    ++ "  :trace     Toggle the rewrite trace\n"
    ++ "  :help      Show this text\n"

/-- What is printed for the outcome of a phrase. -/
def report (text : String) : Except StageError LineResult → Printed
  | .ok result => { stdout := "> " ++ blue result.output ++ "\n" ++ traceText result.trace }
  | .error e =>
    let mark := caret text e
    { stderr := red e.message ++ "\n" ++ (if mark.isEmpty then "" else mark ++ "\n") }

namespace Config

/-- The prompt shows whether judgements are read. -/
def prompt (config : Config) : String :=
  if config.mode.isTyped then "λ:> " else "λ> "

/-- The configuration behind a request. -/
def after (config : Config) : Request → Config
  | .typed => { config with mode := .typed }
  | .untyped => { config with mode := .untyped }
  | .trace => { config with trace := if 0 < config.trace then 0 else 64 }
  | _ => config

/-- The answer to a phrase. -/
def answerPhrase (config : Config) (text : String) : Printed :=
  report text (config.process 0 text)

/-- The answer to a request. -/
def answer (config : Config) : Request → Printed
  | .help => { stdout := sessionHelp }
  | .trace =>
    { stdout := if 0 < (config.after .trace).trace then "trace on\n" else "trace off\n" }
  | .unknown => { stdout := "unknown command. Type :help for commands.\n" }
  | .phrase text => config.answerPhrase text
  | _ => {}

end Config

/-! ### Sessions -/

/-- The state of a session. -/
structure Session where
  config : Config
  history : List String := []
deriving DecidableEq, Repr

/-- The answer to a line, the state behind it, and whether the session goes on.  A blank line
    is passed over; any other goes into the history. -/
def Session.respond (session : Session) (line : String) : Printed × Session × Bool :=
  let text := trimLine line
  match Request.ofTrimmed text with
  | .blank => ({}, session, true)
  | request =>
    let history := addHistory session.history text
    (session.config.answer request, ⟨session.config.after request, history⟩, request != .quit)

/-- Goes through the lines of a session: what is printed, and the state at the end.  The prompt
    is printed before each line and before the end of the input. -/
def Session.run (session : Session) : List String → Printed × Session
  | [] => ({ stdout := session.config.prompt ++ "\n" }, session)
  | line :: lines =>
    let (answer, next, goesOn) := session.respond line
    let printed : Printed := { stdout := session.config.prompt } ++ answer
    if goesOn then
      let (later, final) := next.run lines
      (printed ++ later, final)
    else (printed, next)

end Redex
