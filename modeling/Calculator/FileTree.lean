import Calculator.Output.Writer

/-!
# The file tree

What a path leads to. The working folder holds files and no folders. Of what lies outside only the
parts are known that are alike on every system; the working folder itself lies among the temporary
files, under a name that no path spells.
-/

namespace Calculator

/-- A folder of the tree. -/
inductive Place where
  /-- The working folder. -/
  | work
  /-- The folder that some names lead to from the root, the last name first. -/
  | path (names : List String)
  deriving DecidableEq

/-- What a folder holds under a name. A link is what it leads to. -/
inductive Entry where
  /-- A file, with its content or the failure to read it. -/
  | file (content : Except Failure (List UInt8))
  | folder (place : Place)

/-- The files of the working folder by name, of which the later counts where two have one name, and
the standard input. -/
structure FileTree where
  files : List (String × List UInt8)
  input : List UInt8

namespace FileTree

/-- The most bytes that a name may have. -/
def nameLimit : Nat :=
  255

/-- The most bytes that a path may have. -/
def pathLimit : Nat :=
  4095

/-- The folders of the root that are no links. -/
def rootFolders : List String :=
  ["boot", "dev", "etc", "home", "media", "mnt", "opt", "proc", "root", "run", "srv", "sys", "tmp",
    "usr", "var"]

/-- The folders of programs and libraries, to which the root has links. -/
def programFolders : List String :=
  ["bin", "lib", "sbin"]

/-- The folders for what all users share. -/
def sharedFolders : List String :=
  programFolders ++ ["include", "local", "share", "src"]

/-- The folders for what changes. -/
def variableFolders : List String :=
  ["cache", "lib", "log", "spool", "tmp"]

/-- Programs. What they hold is no text. -/
def programs : List String :=
  ["cat", "ls", "sh"]

/-- Devices that can be read without an end. -/
def endlessDevices : List String :=
  ["full", "random", "urandom", "zero"]

/-- The content of the file of a name in the working folder. -/
def file? (tree : FileTree) (name : String) : Option (List UInt8) :=
  tree.files.reverse.lookup name

/-- A folder below another one, if it is among those that are known. -/
def known? (names folders : List String) (name : String) : Option Entry :=
  if name ∈ folders then some (.folder (.path (name :: names))) else none

/-- The open files of the program, by number. -/
def openFiles : Place :=
  .path ["fd", "self", "proc"]

/-- What a folder holds under a name that is not the one of the folder above. -/
def entry? (tree : FileTree) (place : Place) (name : String) : Option Entry :=
  match place with
  | .work => (tree.file? name).map fun content => .file (.ok content)
  | .path [] => (known? ["usr"] programFolders name).or (known? [] rootFolders name)
  | .path ["usr"] => known? ["usr"] sharedFolders name
  | .path ["bin", "usr"] => if name ∈ programs then some (.file (.error .invalidText)) else none
  | .path ["var"] => known? ["var"] variableFolders name
  | .path ["dev"] =>
    if name = "null" then some (.file (.ok []))
    else if name = "stdin" then some (.file (.ok tree.input))
    else if name = "fd" then some (.folder openFiles)
    else if name ∈ endlessDevices then some (.file (.error (.other "out of memory")))
    else known? ["dev"] ["pts", "shm"] name
  | .path ["proc"] => known? ["proc"] ["self", "sys"] name
  | .path ["self", "proc"] =>
    if name = "cwd" then some (.folder .work)
    else if name = "root" then some (.folder (.path []))
    else if name = "comm" then some (.file (.ok (Utf8.encode "icalc\n")))
    else if name = "exe" then some (.file (.error .invalidText))
    else known? ["self", "proc"] ["fd"] name
  | .path ["fd", "self", "proc"] => if name = "0" then some (.file (.ok tree.input)) else none
  | .path _ => none

/-- The folder above. The one above the root is the root. -/
def above : Place → Place
  | .work => .path ["tmp"]
  | .path names => .path names.tail

/-- What some names lead to from a folder. A file has nothing below it. -/
def find (tree : FileTree) : Place → List String → Except Failure Entry
  | place, [] => .ok (.folder place)
  | place, name :: below =>
    if name = ".." then tree.find (above place) below
    else match tree.entry? place name with
      | some (.folder next) => tree.find next below
      | some (.file content) => if below = [] then .ok (.file content) else .error .notADirectory
      | none => .error (if nameLimit < name.utf8ByteSize then .nameTooLong else .noSuchFile)

/-- The names of a path, without those that stay where they are. -/
def names (path : String) : List String :=
  (path.splitOn "/").filter fun name => name ≠ "" ∧ name ≠ "."

/-- Where a path starts. -/
def start (path : String) : Place :=
  if path.toList.head? = some '/' then .path [] else .work

/-- Whether a path asks for a folder by the way it ends. -/
def endsInFolder (path : String) : Bool :=
  match (path.splitOn "/").getLast? with
  | some last => last = "" || last = "."
  | none => false

/-- Reads the file that a path leads to from the working folder. The empty path leads nowhere. -/
def read (tree : FileTree) (path : String) : Except Failure (List UInt8) :=
  if path = "" then .error .noSuchFile
  else if pathLimit < path.utf8ByteSize then .error .nameTooLong
  else match tree.find (start path) (names path) with
    | .error failure => .error failure
    | .ok (.folder _) => .error .isADirectory
    | .ok (.file content) => if endsInFolder path then .error .notADirectory else content

end FileTree

end Calculator
