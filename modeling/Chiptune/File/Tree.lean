import Chiptune.Error

/-!
# File — File trees

The files that a program sees from the directory it runs in (`FileTree`).  Reading and creating
files follows the rules of path resolution: empty parts and lone dots stay where they are, two dots
go up, only directories can be passed through, and a slash at the end asks for a directory.  A path
may lead out of the directory; of what lies there nothing is known but the directories on the way to
the top, and what the program has put into them.
-/

namespace Chiptune

/-- What a name stands for. -/
inductive FileNode where
  | file (contents : ByteArray)
  | directory

/-- A directory that a path can start from or go up to. -/
inductive Base where
  /-- The directory so many levels above the one the program runs in. -/
  | above (levels : Nat)
  /-- The top directory. -/
  | top
  deriving DecidableEq

/-- A place in the file system: the names that lead to it from a base. -/
structure Place where
  base : Base
  names : List String
  deriving DecidableEq

namespace Place

/-- The directory above a base; the top is above itself. -/
def parentOf : Base → Base
  | .above levels => .above (levels + 1)
  | .top => .top

/-- The place a part of a path leads to. -/
def down (place : Place) (part : String) : Place :=
  match part, place.names with
  | ".", _ => place
  | "..", [] => ⟨parentOf place.base, []⟩
  | "..", names => ⟨place.base, names.dropLast⟩
  | part, names => ⟨place.base, names ++ [part]⟩

/-- The base a path starts from. -/
def start (path : String) : Place :=
  ⟨if path.startsWith "/" then .top else .above 0, []⟩

/-- The parts of a path between its slashes. -/
def parts (path : String) : List String :=
  (path.splitOn "/").filter fun part => part ≠ ""

/-- The place a path leads to if everything on the way is a directory. -/
def ofPath (path : String) : Place :=
  (parts path).foldl down (start path)

/-- Whether a place is a directory on the way to another. -/
def holds (directory place : Place) : Bool :=
  directory.base == place.base && directory.names.isPrefixOf place.names

end Place

/-- The files and explicit directories that are known, by their places; a directory is also there if
something is in it, and so is every base. -/
structure FileTree where
  entries : List (Place × FileNode)

namespace FileTree

/-- No files. -/
def empty : FileTree := ⟨[]⟩

/-- The longest part of a path, in bytes. -/
def maxPartLength : Nat := 255

/-- The longest path, in bytes. -/
def maxPathLength : Nat := 4095

/-- What stands at a place. -/
def node? (tree : FileTree) (place : Place) : Option FileNode :=
  if place.names = [] then some .directory
  else
    match tree.entries.find? fun entry => entry.1 == place with
    | some (_, node) => some node
    | none => if tree.entries.any fun entry => place.holds entry.1 then some .directory else none

/-- Whether a part is one of the names that every directory has for itself and the one above. -/
def isDots (part : String) : Bool :=
  part == "." || part == ".."

/-- Go down the parts of a path; each must lead from a directory to something that is there. -/
def descend (tree : FileTree) (place : Place) : List String → Except OsError Place
  | [] => .ok place
  | part :: rest =>
    match tree.node? place with
    | none => .error .notFound
    | some (.file _) => .error .notDirectory
    | some .directory =>
      if maxPartLength < part.utf8ByteSize then .error .nameTooLong
      else
        match tree.node? (place.down part) with
        | none => .error .notFound
        | some _ => descend tree (place.down part) rest

/-- Why a path is refused whatever is in the tree, if it is. -/
def refusal? (path : String) : Option OsError :=
  if path.toList.any fun c => c.toNat == 0 then some .zeroInName
  else if path = "" then some .notFound
  else if maxPathLength < path.utf8ByteSize then some .nameTooLong
  else none

/-- The contents of a file. -/
def read (tree : FileTree) (path : String) : Except OsError ByteArray :=
  match refusal? path with
  | some cause => .error cause
  | none =>
    match tree.descend (.start path) (Place.parts path) with
    | .error e => .error e
    | .ok place =>
      match tree.node? place with
      | none => .error .notFound
      | some .directory => .error .isDirectory
      | some (.file contents) =>
        if path.endsWith "/" then .error .notDirectory else .ok contents

/-- The tree with a file at a place, instead of what was there. -/
def put (tree : FileTree) (place : Place) (contents : ByteArray) : FileTree :=
  ⟨(place, .file contents) :: tree.entries.filter fun entry => entry.1 != place⟩

/-- Create a file, or give a file that is there new contents. -/
def write (tree : FileTree) (path : String) (contents : ByteArray) : Except OsError FileTree :=
  match refusal? path with
  | some cause => .error cause
  | none =>
    let parts := Place.parts path
    match tree.descend (.start path) parts.dropLast with
    | .error e => .error e
    | .ok place =>
      match tree.node? place, parts.getLast? with
      | none, _ => .error .notFound
      | some (.file _), _ => .error .notDirectory
      | some .directory, none => .error .isDirectory
      | some .directory, some part =>
        if isDots part ∨ path.endsWith "/" then .error .isDirectory
        else if maxPartLength < part.utf8ByteSize then .error .nameTooLong
        else
          match tree.node? (place.down part) with
          | some .directory => .error .isDirectory
          | _ => .ok (tree.put (place.down part) contents)

end FileTree

end Chiptune
