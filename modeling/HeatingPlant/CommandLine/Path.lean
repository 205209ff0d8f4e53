/-!
# Paths

A path as text, cut into names at its slashes.

## Main definitions

* `pathNames` — the names of a path
* `parentPath` — the path to the directory of what a path leads to
* `endsInDirectoryName` — whether a path insists on a directory
* `longestName`, `longestPath` — how long both may be

## Design notes

An empty name and a single dot lead nowhere.  So slashes may be repeated, and what stands between
the last name that leads somewhere and the one in front of it belongs to neither; it counts towards
the length of the path as a whole only.
-/

namespace HeatingPlant.CommandLine

/-- Number of bytes of the longest name. -/
def longestName : Nat := 255

/-- Number of bytes of the longest path. -/
def longestPath : Nat := 4095

/-- The text cut at every slash. -/
def splitPath : List Char → List (List Char)
  | [] => [[]]
  | '/' :: rest => [] :: splitPath rest
  | c :: rest =>
    match splitPath rest with
    | name :: names => (c :: name) :: names
    | [] => [[c]]

/-- The names of a path, with an empty one in front of every slash that no name precedes, and after
the last slash. -/
def pathNames (path : String) : List String := (splitPath path.toList).map String.ofList

/-- Whether a name stands for something else than where it stands or nothing. -/
def stepsOn (name : String) : Bool := name ≠ "" && name ≠ "."

/-- The path up to the last but one of the names that step on. -/
def parentPath (path : String) : String :=
  let above := ((pathNames path).reverse.dropWhile (!stepsOn ·)).drop 1
  "/".intercalate (above.dropWhile (!stepsOn ·)).reverse

/-- Whether a path ends in a name with a slash after it. -/
def endsInDirectoryName (path : String) : Bool :=
  match ((pathNames path).reverse.dropWhile (· = "")).head? with
  | some name => (pathNames path).getLast? = some "" && name ≠ "." && name ≠ ".."
  | none => false

/-- Whether a text has the character that ends a path. -/
def hasEnd (text : String) : Bool := text.toList.contains '\x00'

/-- Whether a path is longer than a path may be. -/
def isTooLong (path : String) : Bool := longestPath < path.utf8ByteSize

/-- Whether a path starts from the root. -/
def startsAtRoot (path : String) : Bool := path.toList.head? = some '/'

end HeatingPlant.CommandLine
