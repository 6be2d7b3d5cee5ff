import TextCalculator.FilePath

/-!
# Settings

Where the history of evaluations is kept. The user may name a path; a path whose first segment is a
tilde begins in the home directory.
-/

namespace TextCalculator.Settings

/-- The path of the history if the user names none. -/
def defaultHistoryPath : FilePath := .ofString "history.txt"

/-- The segment that stands for the home directory. -/
abbrev tilde : List UInt8 := [0x7e]

/-- Segments without the idle ones at the start and at the end. -/
def trimIdle (segments : List (List UInt8)) : List (List UInt8) :=
  ((segments.dropWhile FilePath.isIdle).reverse.dropWhile FilePath.isIdle).reverse

/-- A path looked up in a directory. One that begins with a slash takes the place of the directory;
any other comes behind it, with a slash between the two unless the directory is empty or ends with
one. -/
def join (directory rest : List UInt8) : List UInt8 :=
  if rest.head? = some FilePath.slash then rest
  else if directory = [] ∨ directory.getLast? = some FilePath.slash then directory ++ rest
  else directory ++ FilePath.slash :: rest

/-- Puts the home directory in place of a tilde that is the first segment. -/
def expandHome (home : List UInt8) (path : FilePath) : FilePath :=
  match path.segments with
  | [] => path
  | first :: rest =>
    if first = tilde then ⟨join home (FilePath.joinSlashes (trimIdle rest))⟩ else path

/-- The path of the history, from what the user named and from the home directory. Either may be
missing, and what is empty counts as missing. -/
def historyPath (named home : Option (List UInt8)) : FilePath :=
  match named, home with
  | none, _ | some [], _ => defaultHistoryPath
  | some bytes, none | some bytes, some [] => ⟨bytes⟩
  | some bytes, some home => expandHome home ⟨bytes⟩

end TextCalculator.Settings
