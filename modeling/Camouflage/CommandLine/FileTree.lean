import Camouflage.Bytes

/-!
# File trees

What stands at each place of a tree of files, and what reading a path gives. A path is walked from
left to right, and the first name that cannot be followed decides what is reported.
-/

namespace Camouflage.CommandLine

inductive FileFault where
  | notFound
  /-- Something that is no directory, with more of the path behind it. -/
  | notADirectory
  | isADirectory
  /-- A name of more than 255 bytes, or a path of more than 4095. -/
  | nameTooLong
  deriving DecidableEq, Repr

def FileFault.reason : FileFault → String
  | .notFound => "No such file or directory (os error 2)"
  | .notADirectory => "Not a directory (os error 20)"
  | .isADirectory => "Is a directory (os error 21)"
  | .nameTooLong => "File name too long (os error 36)"

inductive FileEntry where
  | directory
  | file (content : Bytes)
  deriving DecidableEq, Repr

/-- What stands at each place, if anything does. A place is given by the names on the way to it, the
last one first; the root has none. -/
abbrev FileTree := List String → Option FileEntry

namespace FileTree

def maxName : Nat := 255

def maxPath : Nat := 4095

/-- Follows some names from a place and gives what stands there. Only a directory can be left, even
by the empty name that a slash at the end of a path leaves over. -/
def follow (tree : FileTree) (place : List String) : List String → Except FileFault FileEntry
  | [] =>
    match tree place with
    | some entry => .ok entry
    | none => .error .notFound
  | name :: names =>
    match tree place with
    | none => .error .notFound
    | some (.file _) => .error .notADirectory
    | some .directory =>
      if name = "" ∨ name = "." then tree.follow place names
      else if name = ".." then tree.follow place.tail names
      else if name.utf8ByteSize > maxName then .error .nameTooLong
      else tree.follow (name :: place) names

/-- What the file at a path holds. A path without a slash in front starts at `home`. -/
def read (tree : FileTree) (home : List String) (path : String) : Except FileFault Bytes :=
  if path = "" then .error .notFound
  else if path.utf8ByteSize > maxPath then .error .nameTooLong
  else
    match tree.follow (if path.startsWith "/" then [] else home) (path.splitOn "/") with
    | .ok (.file content) => .ok content
    | .ok .directory => .error .isADirectory
    | .error fault => .error fault

end FileTree

end Camouflage.CommandLine
