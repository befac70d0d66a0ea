import Redex.Config.Document
import Redex.Files

/-! # Configurations from files -/

namespace Redex.Config

/-- Why a file gives no configuration. -/
inductive LoadError where
  | emptyPath
  /-- The file at an absolute path cannot be opened. -/
  | closed (path : String) (error : FileError)
  /-- The file at an absolute path cannot be read. -/
  | unreadable (path : String)
  /-- The file at an absolute path holds no configuration. -/
  | document (path : String) (error : DocumentError)
deriving DecidableEq, Repr

/-- The report of an error. -/
def LoadError.message : LoadError → String
  | .emptyPath => "config: empty path"
  | .closed path error =>
    "config: open " ++ path ++ ": open " ++ path ++ ": " ++ error.message
  | .unreadable path =>
    "config: " ++ path ++ ": parse: yaml: input error: read " ++ path ++ ": "
      ++ FileError.isFolder.message
  | .document path error => "config: " ++ path ++ ": " ++ error.message

/-- The configuration in a file. -/
def load (files : Files) (path : String) : Except LoadError Config :=
  if path.isEmpty then .error .emptyPath
  else
    let path := if Path.isAbsolute path then Path.tidy path else Path.join files.here path
    match files.read path with
    | .error .isFolder => .error (.unreadable path)
    | .error e => .error (.closed path e)
    | .ok text =>
      match ofDocument text with
      | .error e => .error (.document path e)
      | .ok config => .ok config

end Redex.Config
