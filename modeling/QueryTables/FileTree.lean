import QueryTables.Text

/-!
# Files

A path leads to a file, to a directory, to something that is there but cannot be read, or to nothing
for a stated reason. A file tree is a set of directories and files in memory, with a directory in
which relative paths start. A path is walked from component to component: each has to be looked up
in a directory, and `.` and `..` are what they are in the directory reached.
-/

namespace QueryTables

/-- Why a path cannot be read. -/
inductive FileFault where
  | missing
  | directory
  | notDirectory
  | nameTooLong
  | nulInPath
  | notText
  | other (message : Text)
deriving DecidableEq, Repr

namespace FileFault

/-- The message for a fault. -/
def message : FileFault → Text
  | missing => "No such file or directory (os error 2)".toList
  | directory => "Is a directory (os error 21)".toList
  | notDirectory => "Not a directory (os error 20)".toList
  | nameTooLong => "File name too long (os error 36)".toList
  | nulInPath => "file name contained an unexpected NUL byte".toList
  | notText => "stream did not contain valid UTF-8".toList
  | other message => message

end FileFault

/-- What a path can lead to: a file with its content, a directory, or something that is there but
cannot be read for the reason stated. -/
inductive FileEntry where
  | file (content : ByteArray)
  | directory
  | unreadable (cause : FileFault)

namespace FileEntry

/-- The text of a file that was looked up. -/
def read : Except FileFault FileEntry → Except FileFault Text
  | .error fault => .error fault
  | .ok .directory => .error .directory
  | .ok (.unreadable cause) => .error cause
  | .ok (.file content) =>
      match Text.ofBytes? content with
      | some text => .ok text
      | none => .error .notText

/-- The content of a file that can be read. -/
def content? : FileEntry → Option ByteArray
  | file content => some content
  | directory | unreadable _ => none

end FileEntry

/-- A set of files and directories by their absolute paths, and the directory in which relative
paths start. The root directory is always there. -/
structure FileTree where
  entries : List (List Text × FileEntry)
  workingDirectory : List Text

namespace FileTree

/-- The components of a path that name something, without those that stay where they are. -/
def components (path : Text) : List Text :=
  (Text.pieces '/' path).filter fun name => name ≠ [] ∧ name ≠ ['.']

/-- What is at an absolute path, given by its components. -/
def entry? (tree : FileTree) (place : List Text) : Option FileEntry :=
  if place = [] then some .directory else tree.entries.lookup place

/-- Walks the components of a path from a place. -/
def walk (tree : FileTree) (place : List Text) (entry : FileEntry) :
    List Text → Except FileFault FileEntry
  | [] => .ok entry
  | name :: rest =>
      match entry with
      | .file _ | .unreadable _ => .error .notDirectory
      | .directory =>
          if name = [] ∨ name = ['.'] then walk tree place entry rest
          else if name = ['.', '.'] then walk tree place.dropLast entry rest
          else if 255 < Text.byteLength name then .error .nameTooLong
          else match tree.entry? (place ++ [name]) with
            | none => .error .missing
            | some entry => walk tree (place ++ [name]) entry rest

/-- What a path leads to. -/
def find (tree : FileTree) (path : Text) : Except FileFault FileEntry :=
  if path = [] then .error .missing
  else if '\x00' ∈ path then .error .nulInPath
  else if 4096 ≤ Text.byteLength path then .error .nameTooLong
  else
    let start := if path.head? = some '/' then [] else tree.workingDirectory
    tree.walk start .directory (Text.pieces '/' path)

/-- The places above a place, from the root on, and the place itself. -/
def ancestors : List Text → List (List Text)
  | [] => [[]]
  | name :: rest => [] :: (ancestors rest).map (name :: ·)

/-- The place that a path names, where relative paths start at the given place. -/
def placeOf (start : List Text) (path : Text) : List Text :=
  if path.head? = some '/' then components path else start ++ components path

/-- A tree of the given files and directories, with all directories above them. -/
def ofFiles (workingDirectory : List Text) (files : List (Text × ByteArray))
    (directories : List Text) : FileTree :=
  let filePlaces := files.map fun file => (placeOf workingDirectory file.1, file.2)
  let stated := workingDirectory :: directories.map (placeOf workingDirectory)
  let above := filePlaces.flatMap fun file => ancestors file.1.dropLast
  let entries := filePlaces.map fun file => (file.1, FileEntry.file file.2)
  let holders := (stated.flatMap ancestors ++ above).map fun place => (place, FileEntry.directory)
  ⟨entries ++ holders, workingDirectory⟩

/-- What the nearest place with a name holds that is no directory, from the working directory up. A
file there ends the search also if it cannot be read. -/
def nearestFile? (tree : FileTree) (name : Text) : Option FileEntry :=
  (ancestors tree.workingDirectory).reverse.findSome? fun place =>
    match tree.entry? (place ++ [name]) with
    | none | some .directory => none
    | some entry => some entry

end FileTree

end QueryTables
