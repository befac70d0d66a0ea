/-! # Files

    A tree of folders and files as far as a command sees it, with the folder that relative
    paths start from.  Paths are resolved one name after the other, as a system does; the
    tidy form of a path is found from its text alone. -/

namespace Redex

/-! ### Paths -/

namespace Path

/-- The names of a path, with empty ones where slashes meet. -/
def names (path : String) : List String :=
  path.splitOn "/"

def isAbsolute (path : String) : Bool :=
  path.startsWith "/"

/-- Leaves out empty names and `.`, and lets `..` cancel the name before it.  Where there is
    none, `..` stays in a relative path and is dropped in an absolute one.  `read` holds the
    names so far in reverse. -/
def tidyNames (absolute : Bool) (read : List String) : List String → List String
  | [] => read.reverse
  | name :: rest =>
    if name = "" ∨ name = "." then tidyNames absolute read rest
    else if name = ".." then
      match read with
      | [] => tidyNames absolute (if absolute then [] else [".."]) rest
      | last :: before =>
        if last = ".." then tidyNames absolute (".." :: read) rest
        else tidyNames absolute before rest
    else tidyNames absolute (name :: read) rest

/-- The text of a path with given names. -/
def ofNames (absolute : Bool) (names : List String) : String :=
  if absolute then "/" ++ "/".intercalate names
  else if names.isEmpty then "." else "/".intercalate names

/-- The tidy form of a path. -/
def tidy (path : String) : String :=
  ofNames (isAbsolute path) (tidyNames (isAbsolute path) [] (names path))

/-- A path below another one. -/
def join (folder path : String) : String :=
  tidy (folder ++ "/" ++ path)

/-- The folder that holds what a path names. -/
def parent (path : String) : String :=
  let folder := "/".intercalate ((names path).dropLast)
  if isAbsolute path ∧ folder = "" then "/" else tidy folder

end Path

/-! ### Trees -/

/-- Why a path cannot be used. -/
inductive FileError where
  | notFound
  | isFolder
  | notAFolder
deriving DecidableEq, Repr

/-- The report of an error. -/
def FileError.message : FileError → String
  | .notFound => "no such file or directory"
  | .isFolder => "is a directory"
  | .notAFolder => "not a directory"

/-- The folders and files that a command sees. -/
structure Files where
  /-- The absolute path of the folder that relative paths start from. -/
  here : String
  /-- The folder of the user, if there is one. -/
  home : Option String := none
  /-- The files by the names on their way from the root. -/
  contents : List (List String × String) := []
  /-- Folders that are there whether or not they hold anything. -/
  folders : List (List String) := []
deriving Repr

namespace Files

/-- The names on the way from the root to the folder that relative paths start from. -/
def hereNames (files : Files) : List String :=
  Path.tidyNames true [] (Path.names files.here)

/-- The text of the file at a place. -/
def file? (files : Files) (place : List String) : Option String :=
  (files.contents.find? (·.1 = place)).map (·.2)

/-- Whether a folder is at a place. -/
def isFolder (files : Files) (place : List String) : Bool :=
  place.isPrefixOf files.hereNames || files.folders.any place.isPrefixOf
    || files.contents.any fun (other, _) => place != other && place.isPrefixOf other

/-- Follows names from a place.  All but the last name have to be there. -/
def follow (files : Files) (place : List String) : List String → Except FileError (List String)
  | [] => .ok place
  | name :: rest =>
    if !files.isFolder place then .error .notAFolder
    else if name = "" ∨ name = "." then files.follow place rest
    else if name = ".." then files.follow place.dropLast rest
    else
      let next := place ++ [name]
      if rest.isEmpty || files.isFolder next || (files.file? next).isSome then
        files.follow next rest
      else .error .notFound

/-- The place that a path names. -/
def placeOf (files : Files) (path : String) : Except FileError (List String) :=
  if path.isEmpty then .error .notFound
  else files.follow (if Path.isAbsolute path then [] else files.hereNames) (Path.names path)

/-- The text of a file.  A folder is found, but cannot be read. -/
def read (files : Files) (path : String) : Except FileError String :=
  match files.placeOf path with
  | .error e => .error e
  | .ok place =>
    if files.isFolder place then .error .isFolder
    else
      match files.file? place with
      | some text => .ok text
      | none => .error .notFound

/-- Writes a file into a folder that is there. -/
def write (files : Files) (path text : String) : Except FileError Files :=
  match files.placeOf path with
  | .error e => .error e
  | .ok place =>
    if files.isFolder place then .error .isFolder
    else if !files.isFolder place.dropLast then .error .notFound
    else .ok { files with contents := (place, text) :: files.contents.filter (·.1 ≠ place) }

/-- Makes the folders on the way to `names`, where `made` are already there.  A file in the way
    is an error, given with its path. -/
def makeFoldersFrom (files : Files) (absolute : Bool) (made : List String) :
    List String → Except (String × FileError) Files
  | [] => .ok files
  | name :: rest =>
    let path := Path.ofNames absolute (made ++ [name])
    match files.placeOf path with
    | .error e => .error (path, e)
    | .ok place =>
      if (files.file? place).isSome then .error (path, .notAFolder)
      else { files with folders := place :: files.folders }.makeFoldersFrom absolute
        (made ++ [name]) rest

/-- Makes a folder and all folders on the way to it. -/
def makeFolders (files : Files) (path : String) : Except (String × FileError) Files :=
  let absolute := Path.isAbsolute path
  files.makeFoldersFrom absolute [] (Path.tidyNames absolute [] (Path.names path))

end Files

end Redex
