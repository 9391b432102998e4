import Pseudolang.CommandLine

/-!
# A folder in memory

The command line can be run against a folder that is a value: a working directory that holds at most
one file, and the directories that were made on the way to it.  Paths are looked up component by
component, and a component can only be looked up in a directory.

This is a stand-in for a file system, for runs without one.  Nothing in the library depends on it:
what is said of the command line is said of any way to read files (`Request.report?`).
-/

namespace Pseudolang

namespace Folder

/-- Where a path starts from. -/
inductive Base
  /-- The root of all directories. -/
  | root
  /-- The directory so many steps up from the working directory. -/
  | above (steps : Nat)
  deriving DecidableEq

/-- A place in the directory tree, by the names that lead to it from a base. -/
structure Place where
  base : Base
  path : List String
  deriving DecidableEq

namespace Place

/-- Where the components of a path are followed from. -/
def start (path : String) : Place where
  base := if path.startsWith "/" then .root else .above 0
  path := []

/-- The directory that a place lies in.  The root lies in itself. -/
def parent : Place → Place
  | ⟨.root, []⟩ => ⟨.root, []⟩
  | ⟨.above steps, []⟩ => ⟨.above (steps + 1), []⟩
  | ⟨base, path⟩ => ⟨base, path.dropLast⟩

/-- The place that a component leads to from a directory. -/
def follow (place : Place) (component : String) : Place :=
  if component = "" ∨ component = "." then place
  else if component = ".." then place.parent
  else { place with path := place.path ++ [component] }

/-- The places that components lead through, one after the other. -/
def visit (place : Place) : List String → List Place
  | [] => []
  | component :: rest => place.follow component :: (place.follow component).visit rest

end Place

end Folder

/-- A working directory with at most one file in it. -/
structure Folder where
  /-- The directories that were made. -/
  directories : List Folder.Place
  /-- The place of the file, and its contents. -/
  file? : Option (Folder.Place × ByteArray)

namespace Folder

/-- The folder without any file. -/
def empty : Folder where
  directories := []
  file? := none

/-- The folder with one file at a path.  Every directory that the path leads through is made, also
one that the path leaves again. -/
def singleton (path : String) (contents : ByteArray) : Folder :=
  let components := path.splitOn "/"
  { directories := (Place.start path).visit components.dropLast
    file? := some (components.foldl Place.follow (Place.start path), contents) }

/-- The contents of the file at a place, if there is one. -/
def fileAt? (f : Folder) (place : Place) : Option ByteArray :=
  match f.file? with
  | some (location, contents) => if place = location then some contents else none
  | none => none

/-- Whether a place is a directory: the bases are, and so are those that were made. -/
def isDirectory (f : Folder) (place : Place) : Bool :=
  place.path.isEmpty || place ∈ f.directories

/-- The place that components lead to. -/
def walk (f : Folder) : Place → List String → Except ReadFailure Place
  | place, [] => .ok place
  | place, component :: rest =>
    if f.isDirectory place then
      let next := place.follow component
      if f.isDirectory next || (f.fileAt? next).isSome then f.walk next rest
      else .error .missing
    else .error .notDirectory

/-- Reads the file at a path. -/
def read (f : Folder) (path : String) : Except ReadFailure ByteArray :=
  if path.isEmpty then .error .missing
  else do
    let place ← f.walk (.start path) (path.splitOn "/")
    match f.fileAt? place with
    | some contents => .ok contents
    | none => .error .isDirectory

end Folder

end Pseudolang
