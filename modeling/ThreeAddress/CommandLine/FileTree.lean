import ThreeAddress.Text.Span

/-!
# File trees

The files of a machine by their paths from the root, and the directory in which a program runs.

* `PathFault` : why a file cannot be read or written;
* `FileTree.walk` : follows the parts of a path, with `.` and `..`; what a part follows must be a directory;
* `FileTree.read`, `FileTree.write` : the content of a file, and the tree with a file replaced or added;
* `FileTree.changes` : the files of a working directory that another tree does not hold like this.

Every tree has the null device, an empty file that keeps nothing.
-/

namespace ThreeAddress.CommandLine
open Text

inductive PathFault where
  | noEntry
  | notDirectory
  | isDirectory
  | nameTooLong
deriving DecidableEq, Repr

def PathFault.message : PathFault → String
  | noEntry => "No such file or directory (os error 2)"
  | notDirectory => "Not a directory (os error 20)"
  | isDirectory => "Is a directory (os error 21)"
  | nameTooLong => "File name too long (os error 36)"

/-- The most bytes in one name and in a whole path. -/
def maxNameLength : Nat := 255
def maxPathLength : Nat := 4095

abbrev Path := List (List Char)

def nullDevice : Path := ["dev".toList, "null".toList]

structure FileTree where
  /-- The working directory: paths begin here unless a slash stands in front. -/
  home : Path := []
  /-- Files by their paths from the root. -/
  files : List (Path × ByteArray) := []

namespace FileTree

/-- The tree in which a working directory holds these files, given by their paths from it. -/
def ofHome (home : Path) (files : List (Path × ByteArray)) : FileTree :=
  ⟨home, files.map fun f => (home ++ f.1, f.2)⟩

def content? (t : FileTree) (path : Path) : Option ByteArray :=
  if path = nullDevice then some .empty else t.files.lookup path

/-- Directories are the working directory, those that hold a file, and what these stand in. -/
def isDirectory (t : FileTree) (path : Path) : Bool :=
  (t.home :: nullDevice.dropLast :: t.files.map (·.1.dropLast)).any path.isPrefixOf

/-- Where a path ends. A vacant place is one in a directory at which nothing stands. -/
inductive Place where
  | directory
  | file (path : Path) (content : ByteArray)
  | vacant (path : Path)

/-- Walks on from a directory. The root is its own parent. -/
def walk (t : FileTree) (dir : Path) : Path → Except PathFault Place
  | [] => .ok .directory
  | part :: rest =>
    if part = [] ∨ part = ['.'] then t.walk dir rest
    else if part = ['.', '.'] then t.walk dir.dropLast rest
    else if maxNameLength < utf8Length part then .error .nameTooLong
    else
      let path := dir ++ [part]
      if t.isDirectory path then t.walk path rest
      else
        match t.content? path, rest with
        | some bytes, [] => .ok (.file path bytes)
        | none, [] => .ok (.vacant path)
        | none, _ => .error .noEntry
        | some _, _ => .error .notDirectory

def find (t : FileTree) (path : List Char) : Except PathFault Place :=
  t.walk (if path.head? = some '/' then [] else t.home) (path.splitOn '/')

def read (t : FileTree) (path : String) : Except PathFault ByteArray :=
  if maxPathLength < path.utf8ByteSize then .error .nameTooLong
  else
    match t.find path.toList with
    | .error f => .error f
    | .ok .directory => .error .isDirectory
    | .ok (.vacant _) => .error .noEntry
    | .ok (.file _ bytes) => .ok bytes

/-- The tree with a new content at a path from the root. -/
def put (t : FileTree) (path : Path) (bytes : ByteArray) : FileTree :=
  if path = nullDevice then t else { t with files := (path, bytes) :: t.files.filter (·.1 ≠ path) }

/-- No directory is written. A path that ends in a slash names one, whatever stands there; only the directory
around it is looked at. -/
def write (t : FileTree) (path : String) (bytes : ByteArray) : Except PathFault FileTree :=
  let backwards := path.toList.reverse.dropWhile (· = '/')
  if maxPathLength < path.utf8ByteSize then .error .nameTooLong
  else if backwards.length < path.length then
    match t.find (backwards.dropWhile (· ≠ '/')).reverse with
    | .error f => .error f
    | .ok _ => .error .isDirectory
  else
    match t.find path.toList with
    | .error f => .error f
    | .ok .directory => .error .isDirectory
    | .ok (.vacant p) | .ok (.file p _) => .ok (t.put p bytes)

/-- Files in the working directory, by their paths from it. -/
def changes (before after : FileTree) : List (Path × ByteArray) :=
  (after.files.filter fun f =>
      after.home.isPrefixOf f.1 && (before.content? f.1).map ByteArray.data ≠ some f.2.data).map
    fun f => (f.1.drop after.home.length, f.2)

end FileTree

end ThreeAddress.CommandLine
