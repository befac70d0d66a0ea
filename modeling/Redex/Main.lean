import Redex.Command

/-! # The program

    Gathers what a command needs from the system, runs it, and carries out what it leaves
    behind.  Sessions go line by line, and timings are taken here. -/

namespace Redex.Main

/-- Prints to the two channels. -/
def emit (printed : Printed) : IO Unit := do
  let stdout ← IO.getStdout
  let stderr ← IO.getStderr
  stdout.putStr printed.stdout
  stdout.flush
  stderr.putStr printed.stderr
  stderr.flush

/-- The bytes of a stream up to its end, behind those already read. -/
partial def readAll (stream : IO.FS.Stream) (read : ByteArray) : IO ByteArray := do
  let chunk ← stream.read 65536
  if chunk.isEmpty then return read else readAll stream (read ++ chunk)

/-- Whether a folder is at a path. -/
def isFolderAt (path : String) : IO Bool := do
  ((← IO.currentDir) / path).isDir

/-- Takes the file or folder at a path, and the folder that holds it, into view. -/
def look (files : Files) (path : String) : IO Files := do
  let path := if Path.isAbsolute path then Path.tidy path else Path.join files.here path
  let place := Path.tidyNames true [] (Path.names path)
  let files ←
    if ← isFolderAt (Path.parent path) then
      pure { files with folders := place.dropLast :: files.folders }
    else pure files
  if ← isFolderAt path then
    return { files with folders := place :: files.folders }
  try
    let bytes ← IO.FS.readBinFile path
    return { files with contents := (place, Text.decodeUtf8 bytes.toList) :: files.contents }
  catch _ => return files

/-- Repeats what a timing is about, as often as asked for. -/
def repeatRun (work : Reducer → Timing.Outcome × Reducer) (count : Nat) (reducer : Reducer) :
    IO Reducer := do
  let mut reducer := reducer
  for _ in [0:count] do
    let (outcome, next) := work reducer
    unless outcome.passed do throw (IO.userError "a timed run has failed")
    reducer := next
  return reducer

/-- The time that a timing takes in nanoseconds, taken when the line has been run for a tenth
    of its iterations. -/
def timeOf (config : Config) (input : String) (iterations : Nat) (timing : Timing) :
    IO Int64 := do
  let tokens := (Token.scan input).toOption.getD []
  let phrase := (Phrase.ofTokens config.mode tokens).toOption.getD (.expression .missing)
  let work (reducer : Reducer) := config.timedRun input tokens phrase reducer timing
  let reducer ← repeatRun work (iterations / 10) config.reducer
  let start ← IO.monoNanosNow
  let _ ← repeatRun work iterations reducer
  return Int64.ofNat ((← IO.monoNanosNow) - start)

/-- Takes the timings of a bench that will succeed. -/
def takeTimings (files : Files) (arguments : List String) : IO (Timing → Option Int64) := do
  match Command.Flag.parse (Command.flagsOf false) arguments with
  | .ok (values, [input, count]) =>
    match Text.plainInt count, Command.configOf files values with
    | .ok iterations, .ok config =>
      if (config.bench input iterations).toBool then
        let taken ← config.timings.mapM fun timing => do
          return (timing, ← timeOf config input iterations.toNat timing)
        return fun timing => (taken.find? (·.1 = timing)).map (·.2)
      else return fun _ => none
    | _, _ => return fun _ => none
  | _ => return fun _ => none

/-- Holds a session line by line.  `pieces` are left of the line that was read last. -/
partial def converse (stdin : IO.FS.Stream) (pieces : List Text.Piece) (session : Session) :
    IO Session := do
  emit { stdout := session.config.prompt }
  let pieces ← if pieces.isEmpty then pure (Text.pieces (← stdin.getLine)) else pure pieces
  match pieces with
  | [] =>
    emit { stdout := "\n" }
    return session
  | piece :: pieces =>
    let (answer, next, goesOn) := session.respond piece.text
    emit answer
    if goesOn then converse stdin pieces next else return next

/-- Runs the interactive command. -/
def interact (files : Files) (arguments : List String) : IO UInt32 := do
  match Command.sessionConfig { files } arguments with
  | .error outcome =>
    emit outcome.printed
    return outcome.code.toUInt32
  | .ok config =>
    emit { stdout := Command.banner }
    let path := Command.historyPath files config.history
    let history := Command.loadHistory (← look files path) path
    let final ← converse (← IO.getStdin) [] { config, history }
    try
      IO.FS.writeFile path (historyText final.history)
    catch _ => pure ()
    return 0

end Redex.Main

open Redex Redex.Main

/-- Runs the command that the arguments name. -/
def main (arguments : List String) : IO UInt32 := do
  let start : Files := { here := (← IO.currentDir).toString, home := ← IO.getEnv "HOME" }
  let files ← (Command.pathsRead arguments).foldlM look start
  match arguments with
  | "repl" :: arguments => interact files arguments
  | _ =>
    let clock ← match arguments with
      | "bench" :: arguments => takeTimings files arguments
      | _ => pure fun _ => none
    let readsInput := arguments.head? = some "run" && (Command.pathsRead arguments).length < 2
    let stdin ←
      if readsInput then
        pure (Text.decodeUtf8 (← readAll (← IO.getStdin) ByteArray.empty).toList)
      else pure ""
    let outcome := Command.run { files, stdin, clock } arguments
    emit outcome.printed
    return outcome.code.toUInt32
