import PlainStory.Library.Basic
import PlainStory.Library.PathPattern
import PlainStory.Text.Bytes

/-!
# File trees

Stories can be kept in the files of a tree of directories. A story is loaded by a path that is
followed from the root of the library, name by name; stories are found by a pattern for their paths
below that root.
-/

namespace PlainStory

/-- The files and directories below a common top, by the names that lead to them. -/
structure FileTree where
  files : List (List Text × List UInt8) := []
  directories : List (List Text) := []

/-- Why a path does not lead to a text. -/
inductive FileFault where
  | missing
  | isDirectory
  | notDirectory
  | nameTooLong
  | invalidText
  | invalidPath
deriving DecidableEq

namespace FileFault

def message : FileFault → Text
  | missing => "No such file or directory (os error 2)"
  | isDirectory => "Is a directory (os error 21)"
  | notDirectory => "Not a directory (os error 20)"
  | nameTooLong => "File name too long (os error 36)"
  | invalidText => "stream did not contain valid UTF-8"
  | invalidPath => "file name contained an unexpected NUL byte"

/-- The error of loading the story at a path. -/
def loadError (path : Text) : FileFault → LoadError
  | missing => .notFound path
  | fault => .unreadable path fault.message

end FileFault

namespace FileTree

/-- The names in a path. -/
def names (path : Text) : List Text := Text.splitAt '/' path

/-- The places where names turn back, and last the place that they lead to. -/
def turns (place : List Text) : List Text → List (List Text)
  | [] => [place]
  | name :: rest =>
    if name = [] ∨ name = "." then turns place rest
    else if name = ".." then place :: turns place.dropLast rest
    else turns (place ++ [name]) rest

/-- Adds a directory with those above it and those on the way to it. -/
def addDirectory (t : FileTree) (path : Text) : FileTree :=
  { t with directories := turns [] (names path) ++ t.directories }

/-- Adds a file with the directories above it and those on the way to it. -/
def addFile (t : FileTree) (path : Text) (bytes : List UInt8) : FileTree :=
  let places := turns [] (names path)
  { files := (places.getLast?.getD [], bytes) :: t.files
    directories := places.dropLast ++ t.directories }

def file? (t : FileTree) (place : List Text) : Option (List UInt8) := t.files.lookup place

/-- Whether a place is a directory: the top, or one that has been added or has something below it. -/
def isDirectory (t : FileTree) (place : List Text) : Bool :=
  place.isEmpty || t.directories.any (place.isPrefixOf ·) ||
    t.files.any fun f => place.isPrefixOf f.1 && place ≠ f.1

/-- Where names lead from outside of the tree: to a directory if they only go up, else nowhere. -/
def faultOutside (rest : List Text) : FileFault :=
  if rest.all fun name => name = [] || name = "." || name = ".." then .isDirectory else .missing

/-- The largest number of bytes that the name of a file or directory can have. -/
def maxNameSize : Nat := 255

/-- The largest number of bytes that a path can have. -/
def maxPathSize : Nat := 4095

/-- Follows names from a place, which is given from the top down. -/
def follow (t : FileTree) (place : List Text) : List Text → Except FileFault (List Text)
  | [] => .ok place
  | name :: rest =>
    if (t.file? place).isSome then .error .notDirectory
    else if !t.isDirectory place then .error .missing
    else if name = [] ∨ name = "." then t.follow place rest
    else if name = ".." then
      if place = [] then .error (faultOutside rest) else t.follow place.dropLast rest
    else if maxNameSize < (Text.bytes name).length then .error .nameTooLong
    else
      let place := place ++ [name]
      if (t.file? place).isSome || t.isDirectory place then t.follow place rest
      else .error .missing

/-- The place that a path leads to. -/
def place? (t : FileTree) (path : Text) : Except FileFault (List Text) :=
  if '\x00' ∈ path then .error .invalidPath
  else if maxPathSize < (Text.bytes path).length then .error .nameTooLong
  else if Text.startsWith "/" path then .error (faultOutside (names path))
  else t.follow [] (names path)

/-- A path that is followed from a root, unless it starts at the top of the file system. -/
def pathWithin (root path : Text) : Text :=
  if root = [] ∨ Text.startsWith "/" path then path else root ++ '/' :: path

/-- The text of the file that a path leads to from a root. -/
def read (t : FileTree) (root path : Text) : Except FileFault Text := do
  let place ← t.place? (pathWithin root path)
  match t.file? place with
  | none => .error .isDirectory
  | some bytes => (Text.ofBytes? bytes).mapError fun _ => .invalidText

def load (t : FileTree) (root path : Text) : Except LoadError Text :=
  (t.read root path).mapError (FileFault.loadError path)

/-- The path from a place to a file that is below it. -/
def pathFrom? (place file : List Text) : Option Text :=
  match place.isPrefixOf? file with
  | some (name :: rest) => some (Text.join "/" (name :: rest))
  | some [] | none => none

/-- The paths of all files below a place. -/
def pathsBelow (t : FileTree) (place : List Text) : List Text :=
  t.files.filterMap fun f => pathFrom? place f.1

/-- A path with slashes only. -/
def withSlashes (path : Text) : Text := path.map fun c => if c = '\\' then '/' else c

/-- The paths of the files below a root that a pattern selects, in order. -/
def find (t : FileTree) (root pattern : Text) : Except LoadError (List Text) :=
  match PathPattern.ofText? pattern with
  | .error e => .error (.unreadable pattern e.message)
  | .ok p =>
    match t.place? root with
    | .error _ => .ok []
    | .ok place =>
      let selected := ((t.pathsBelow place).eraseDups.filter p.selects).map withSlashes
      .ok (selected.mergeSort fun a b => !decide (b < a))

end FileTree

end PlainStory
