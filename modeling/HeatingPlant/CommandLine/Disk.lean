import HeatingPlant.CommandLine.Path

/-!
# A model of the file tree

Directories and files, as far as reading settings and opening a journal depend on them.

## Main definitions

* `Node` — what stands at a place, with everything under it
* `Disk` — the whole tree, the working directory, and what may be changed
* `Disk.walk` — where the names of a path lead
* `Disk.textAt` — the text of a file
* `Disk.openForAppend` — a file opened that is to be appended to, created if need be with the
  directories on the way
* `Disk.append` — text appended to a file

## Design notes

A place is the list of names that lead to it from the root.  Every name on the way must be that of a
directory, also the one in front of a trailing slash.  The length of a name counts only once the
directory that would hold it has been found, the length of a path at once.

Directories are made from the last one on: it is tried first, and the one above it only if something
is missing on the way.
-/

namespace HeatingPlant.CommandLine

/-- What stands at a place. -/
inductive Node where
  | directory (entries : List (String × Node))
  | file (content : String)
  /-- A device that is empty and keeps nothing. -/
  | void
  deriving Repr

namespace Node

/-- What a directory holds. -/
def entries : Node → List (String × Node)
  | directory entries => entries
  | _ => []

/-- What stands at a place under a node. -/
def at? (node : Node) : List String → Option Node
  | [] => some node
  | name :: rest => (node.entries.lookup name).bind fun next => next.at? rest

/-- The node with something put at a place under it, and directories on the way. -/
def put (new : Node) : List String → Node → Node
  | [], _ => new
  | name :: rest, node =>
    let next := put new rest ((node.entries.lookup name).getD (.directory []))
    .directory ((name, next) :: node.entries.filter fun entry => entry.1 ≠ name)

end Node

/-- The directories and files there are. -/
structure Disk where
  /-- The place of the working directory. -/
  home : List String
  /-- The places at and under which there may be changes. -/
  changeable : List (List String)
  /-- What stands at the root. -/
  root : Node
  deriving Repr

/-- Why a path leads nowhere. -/
inductive DiskError where
  | notFound
  | permissionDenied
  | alreadyExists
  | notDirectory
  | isDirectory
  | nameTooLong
  /-- A path with the character that ends it. -/
  | endInside
  deriving DecidableEq, Repr

/-- The wording of a failure. -/
def DiskError.message : DiskError → String
  | notFound => "No such file or directory (os error 2)"
  | permissionDenied => "Permission denied (os error 13)"
  | alreadyExists => "File exists (os error 17)"
  | notDirectory => "Not a directory (os error 20)"
  | isDirectory => "Is a directory (os error 21)"
  | nameTooLong => "File name too long (os error 36)"
  | endInside => "file name contained an unexpected NUL byte"

namespace Disk

/-- What stands at a place. -/
def node? (disk : Disk) (place : List String) : Option Node := disk.root.at? place

/-- The disk with something put at a place. -/
def put (place : List String) (node : Node) (disk : Disk) : Disk :=
  { disk with root := Node.put node place disk.root }

/-- The disk with a file put into its working directory. -/
def putFile (name content : String) (disk : Disk) : Disk :=
  disk.put (disk.home ++ [name]) (.file content)

/-- Whether there may be changes at a place. -/
def mayChange (disk : Disk) (place : List String) : Bool :=
  disk.changeable.any fun top => top.isPrefixOf place

/-- The place that a name leads to from a directory.  The name need not stand for anything. -/
def step (place : List String) (name : String) : Except DiskError (List String) :=
  if name = ".." then .ok place.dropLast
  else if longestName < name.utf8ByteSize then .error .nameTooLong
  else .ok (place ++ [name])

/-- The place that names lead to from another one.  The last name need not stand for anything. -/
def walk (disk : Disk) (place : List String) : List String → Except DiskError (List String)
  | [] => .ok place
  | name :: rest =>
    match disk.node? place with
    | none => .error .notFound
    | some (.file _) | some .void => .error .notDirectory
    | some (.directory _) =>
      if stepsOn name then (step place name).bind fun next => walk disk next rest
      else walk disk place rest

/-- The place that a path starts from. -/
def start (disk : Disk) (path : String) : List String :=
  if startsAtRoot path then [] else disk.home

/-- The place that a path leads to. -/
def resolve (disk : Disk) (path : String) : Except DiskError (List String) :=
  if hasEnd path then .error .endInside
  else if path = "" then .error .notFound
  else if isTooLong path then .error .nameTooLong
  else disk.walk (disk.start path) (pathNames path)

/-- The text of a file. -/
def textAt (disk : Disk) (path : String) : Except DiskError String := do
  match disk.node? (← disk.resolve path) with
  | none => .error .notFound
  | some (.directory _) => .error .isDirectory
  | some (.file content) => .ok content
  | some .void => .ok ""

/-- A directory made where names lead, unless there is one: the disk afterwards, and the place of
the directory or why there is none. -/
def makeDirectory (disk : Disk) (place names : List String) :
    Disk × Except DiskError (List String) :=
  match disk.walk place names with
  | .error e => (disk, .error e)
  | .ok place =>
    match disk.node? place with
    | none =>
      if disk.mayChange place then (disk.put place (.directory []), .ok place)
      else (disk, .error .permissionDenied)
    | some (.directory _) => (disk, .ok place)
    | some (.file _) | some .void => (disk, .error .alreadyExists)

/-- Directories made where names lead, the last of which comes first: the disk afterwards, and the
place of the last directory or why there is none.  What was made before a failure stays. -/
def makeDirectories (disk : Disk) (place : List String) :
    List String → Disk × Except DiskError (List String)
  | [] => (disk, .ok place)
  | name :: above =>
    match disk.makeDirectory place (name :: above).reverse with
    | (_, .error .notFound) =>
      match makeDirectories disk place above with
      | (disk, .ok place) => disk.makeDirectory place [name]
      | (disk, .error e) => (disk, .error e)
    | made => made

/-- The directories made on the way to what a path leads to. -/
def makeParents (disk : Disk) (path : String) : Disk × Except DiskError (List String) :=
  let parent := parentPath path
  if hasEnd parent then (disk, .error .endInside)
  else if isTooLong parent then (disk, .error .nameTooLong)
  else
    disk.makeDirectories (disk.start path) ((pathNames parent).filter stepsOn).reverse

/-- A file opened that is to be appended to, and created if need be: the disk afterwards, and the
place of the file or why there is none. -/
def openFile (disk : Disk) (path : String) : Disk × Except DiskError (List String) :=
  if endsInDirectoryName path ∧ !hasEnd path ∧ !isTooLong path then (disk, .error .isDirectory)
  else
    match disk.resolve path with
    | .error e => (disk, .error e)
    | .ok place =>
      match disk.node? place with
      | some (.directory _) => (disk, .error .isDirectory)
      | found =>
        if disk.mayChange place then
          (if found.isSome then disk else disk.put place (.file ""), .ok place)
        else (disk, .error .permissionDenied)

/-- The same with the directories on the way to it. -/
def openForAppend (disk : Disk) (path : String) : Disk × Except DiskError (List String) :=
  match disk.makeParents path with
  | (disk, .ok _) => disk.openFile path
  | (disk, .error e) => (disk, .error e)

/-- The disk with text appended to the file at a place. -/
def append (place : List String) (text : String) (disk : Disk) : Disk :=
  match disk.node? place with
  | some (.file content) => disk.put place (.file (content ++ text))
  | _ => disk

end Disk

end HeatingPlant.CommandLine
