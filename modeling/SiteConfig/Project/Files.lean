import SiteConfig.Text.Utf8
/-!
# Project files

A tree of files and directories by path, and opening one as an operating system does.
-/
namespace SiteConfig

inductive FileNode where
  | file (bytes : List UInt8)
  | directory

/-- The files and directories below a root. A path lists the names from the root on. -/
abbrev Files := List (List String × FileNode)

inductive FileError where
  | notFound
  | notDirectory
  | isDirectory
  | nameTooLong
  | nulInPath
  | notText (fault : Text.Utf8Fault)
  deriving DecidableEq

def FileError.message : FileError → String
  | .notFound => "No such file or directory (os error 2)"
  | .notDirectory => "Not a directory (os error 20)"
  | .isDirectory => "Is a directory (os error 21)"
  | .nameTooLong => "File name too long (os error 36)"
  | .nulInPath => "file name contained an unexpected NUL byte"
  | .notText fault => fault.message

/-- A place on the way along a path: at or below the root, or a directory outside of which nothing
is known but that it exists. -/
inductive Place where
  | below (path : List String)
  | outside
  deriving DecidableEq

namespace Place

def root : Place := .below []

def longestName : Nat := 255

/-- The place that a step leads to from a directory. Empty steps and single points stay, double
points lead up, and a name leads to what the directory holds under it. -/
def step (place : Place) (name : String) : Except FileError Place :=
  if name = "" ∨ name = "." then .ok place
  else match place with
    | .below path =>
      if name = ".." then .ok (if path.isEmpty then .outside else .below path.dropLast)
      else if longestName < name.utf8ByteSize then .error .nameTooLong
      else .ok (.below (path ++ [name]))
    | .outside =>
      if name = ".." then .ok .outside
      else if longestName < name.utf8ByteSize then .error .nameTooLong
      else .error .notFound

end Place

namespace Files

def node? (files : Files) : Place → Option FileNode
  | .outside | .below [] => some .directory
  | .below path => files.lookup path

def checkDirectory (files : Files) (place : Place) : Except FileError Unit :=
  match files.node? place with
  | none => .error .notFound
  | some (.file _) => .error .notDirectory
  | some .directory => .ok ()

/-- The place to which the steps of a written path lead. Each of them is taken from a directory;
where the last one leads, nothing need stand. -/
def walk (files : Files) (place : Place) : List String → Except FileError Place
  | [] => .ok place
  | name :: rest => do
    files.checkDirectory place
    walk files (← place.step name) rest

def find (files : Files) (start : Place) (steps : List String) : Except FileError FileNode := do
  match files.node? (← files.walk start steps) with
  | none => throw .notFound
  | some node => return node

def put (files : Files) (path : List String) (node : FileNode) : Files :=
  (path, node) :: files.filter fun (other, _) => other != path

def fill (files : Files) (place : Place) : Files :=
  match place, files.node? place with
  | .below path, none => files.put path .directory
  | _, _ => files

/-- Walks a written path, makes the directories on it that do not exist, also those that it leaves
again, and gives the last one. -/
def makeDirectories (files : Files) (place : Place) :
    List String → Except FileError (Files × Place)
  | [] => do
    files.checkDirectory place
    return (files, place)
  | name :: rest => do
    files.checkDirectory place
    let next ← place.step name
    makeDirectories (files.fill next) next rest

def write (files : Files) (start : Place) (steps : List String) (bytes : List UInt8) :
    Except FileError Files := do
  let (files, dir) ← files.makeDirectories start steps.dropLast
  let place ← dir.step (steps.getLastD "")
  match place, files.node? place with
  | .below path, none | .below path, some (.file _) => return files.put path (.file bytes)
  | _, _ => throw .isDirectory

def remove (files : Files) (start : Place) (steps : List String) : Except FileError Files := do
  let place ← files.walk start steps
  match place, files.node? place with
  | .below path, some _ => return files.filter fun (other, _) => !path.isPrefixOf other
  | _, _ => throw .notFound

end Files

/-- The bytes of an opened file; a directory can be opened but not read. -/
def FileNode.read : FileNode → Except FileError (List UInt8)
  | .directory => .error .isDirectory
  | .file bytes => .ok bytes

def FileNode.readText (node : FileNode) : Except FileError String := do
  let bytes ← node.read
  match Text.decodeUtf8 bytes with
  | .ok text => return text
  | .error fault => throw (.notText fault)

end SiteConfig
