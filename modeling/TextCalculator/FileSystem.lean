import TextCalculator.FileError
import TextCalculator.FilePath

/-!
# A file system

Directories, files with their bytes, files that may not be written, and a device that swallows what
is written to it, each at a *location*. A path is followed segment by segment from the root or from
the working directory to a location.

Reading and appending fail for the causes that the operating system checks, in its order: first the
path as a whole, then each directory on the way, and the last name at the end. A failed access
leaves the file system as it is.
-/

namespace TextCalculator

/-- A location: the names on the way to it, the last one first. -/
abbrev Location := List (List UInt8)

/-- What may be at a location. -/
inductive Node where
  /-- A directory. -/
  | directory
  /-- A file with its content. -/
  | file (content : ByteArray)
  /-- A file that may not be written, and that may be read or not. -/
  | lockedFile (content : ByteArray) (isReadable : Bool)
  /-- A device that is always empty. -/
  | nullDevice

/-- A file system. -/
structure FileSystem where
  /-- What is at each location, if anything. -/
  node? : Location → Option Node
  /-- Where relative paths begin. -/
  workingDirectory : Location

namespace FileSystem

/-- The file system with something else at one location. -/
def update (fs : FileSystem) (location : Location) (node : Node) : FileSystem :=
  { fs with node? := fun l ↦ if l = location then some node else fs.node? l }

/-! ### Following a path -/

/-- The greatest length of a path, in bytes. -/
abbrev maxPathLength : Nat := 4095

/-- The greatest length of a name, in bytes. -/
abbrev maxNameLength : Nat := 255

/-- What is at a name in a directory, if anything. -/
def child? (fs : FileSystem) (directory : Location) (name : List UInt8) :
    Except FileError (Option Node) :=
  if maxNameLength < name.length then .error .nameTooLong else .ok (fs.node? (name :: directory))

/-- One step from a directory on the way to another. -/
def step (fs : FileSystem) (directory : Location) (segment : List UInt8) :
    Except FileError Location :=
  if FilePath.isIdle segment then .ok directory
  else if segment = FilePath.above then .ok directory.tail
  else do
    match ← fs.child? directory segment with
    | some .directory => return segment :: directory
    | some _ => .error .notADirectory
    | none => .error .notFound

/-- Where a path leads, once every directory on the way has been passed. -/
inductive Target where
  /-- To a directory, by a last segment that is no name. -/
  | directory (location : Location)
  /-- To a name in a directory. `slashed` says that a slash follows the name. -/
  | name (directory : Location) (name : List UInt8) (slashed : Bool)
deriving DecidableEq

/-- Where a path begins. -/
def start (fs : FileSystem) (path : FilePath) : Location :=
  if path.bytes.head? = some FilePath.slash then [] else fs.workingDirectory

/-- Follows a path up to its last segment. -/
def follow (fs : FileSystem) (path : FilePath) : Except FileError Target :=
  if 0 ∈ path.bytes then .error .zeroByte
  else if path.bytes = [] then .error .notFound
  else if maxPathLength < path.bytes.length then .error .nameTooLong
  else
    let segments := path.segments.filter (· ≠ [])
    match segments.getLast? with
    | none => .ok (.directory (fs.start path))
    | some last => do
      let directory ← segments.dropLast.foldlM fs.step (fs.start path)
      if last = FilePath.here then return .directory directory
      else if last = FilePath.above then return .directory directory.tail
      else return .name directory last (path.bytes.getLast? = some FilePath.slash)

/-! ### Access to files -/

/-- Adds bytes at the end of a file, which is made if there is none. -/
def append (fs : FileSystem) (path : FilePath) (bytes : ByteArray) :
    Except FileError FileSystem := do
  match ← fs.follow path with
  | .directory _ | .name _ _ true => .error .isADirectory
  | .name directory name false =>
    match ← fs.child? directory name with
    | none => return fs.update (name :: directory) (.file bytes)
    | some (.file content) => return fs.update (name :: directory) (.file (content ++ bytes))
    | some (.lockedFile ..) => .error .permissionDenied
    | some .nullDevice => return fs
    | some .directory => .error .isADirectory

/-- The content of a file. -/
def read (fs : FileSystem) (path : FilePath) : Except FileError ByteArray := do
  match ← fs.follow path with
  | .directory _ => .error .isADirectory
  | .name directory name slashed =>
    match ← fs.child? directory name with
    | none => .error .notFound
    | some .directory => .error .isADirectory
    | some (.file content) => if slashed then .error .notADirectory else return content
    | some (.lockedFile content isReadable) =>
      if slashed then .error .notADirectory
      else if isReadable then return content
      else .error .permissionDenied
    | some .nullDevice => if slashed then .error .notADirectory else return .empty

/-! ### Changing the tree -/

/-- The location that the segments of a path spell, whatever is there. -/
def spelledLocation (fs : FileSystem) (path : FilePath) : Location :=
  path.segments.foldl
    (fun location segment ↦
      if FilePath.isIdle segment then location
      else if segment = FilePath.above then location.tail
      else segment :: location)
    (fs.start path)

/-- The file system with directories all the way down to a location. -/
def makeDirectories (fs : FileSystem) : Location → FileSystem
  | [] => fs
  | name :: parent => (fs.makeDirectories parent).update (name :: parent) .directory

/-- Gives a file a content, making the directories above it. The null device keeps none. -/
def write (fs : FileSystem) (path : FilePath) (content : ByteArray) : FileSystem :=
  let location := fs.spelledLocation path
  match fs.node? location with
  | some .nullDevice => fs
  | _ => (fs.makeDirectories location.tail).update location (.file content)

/-- Makes the directory at a path, and those above it. -/
def makeDirectory (fs : FileSystem) (path : FilePath) : FileSystem :=
  fs.makeDirectories (fs.spelledLocation path)

/-- Removes what is at a path, and all below it. -/
def remove (fs : FileSystem) (path : FilePath) : FileSystem :=
  let location := fs.spelledLocation path
  { fs with node? := fun l ↦ if location.isSuffixOf l then none else fs.node? l }

/-! ### A fresh file system -/

/-- A name given as text. -/
def nameOf (s : String) : List UInt8 := s.toUTF8.toList

/-- A file system with the null device and an empty working directory. -/
def fresh : FileSystem :=
  let workingDirectory := [nameOf "work", nameOf "tmp"]
  let root : FileSystem :=
    { node? := fun l ↦ if l = [] then some .directory else none, workingDirectory }
  ((root.makeDirectories workingDirectory).makeDirectories [nameOf "dev"]).update
    [nameOf "null", nameOf "dev"] .nullDevice

end FileSystem

end TextCalculator
