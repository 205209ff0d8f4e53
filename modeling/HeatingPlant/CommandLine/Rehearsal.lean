import HeatingPlant.CommandLine.Disk
import HeatingPlant.CommandLine.Plan

/-!
# Rehearsing the program

A whole run of the program on a model of the file tree, on a computer without a network, with a
service that is asked to stop as soon as it listens.

## Main definitions

* `Disk.usual` — the file tree of a usual system
* `findSettings` — what a path to a settings file leads to
* `Launch.outcome` — what there is to tell from the start to the end, and how it ends
* `rehearse` — the program for the words of a command line
-/

namespace HeatingPlant.CommandLine

/-! ### A computer without a network -/

namespace Disk

/-- The directories of a usual system. -/
def usualDirectories : List (List String) :=
  (["bin", "boot", "home", "lib", "media", "mnt", "opt", "proc", "root", "run", "sbin", "srv",
      "sys", "tmp"].map fun name => [name]) ++
    [["dev", "shm"], ["usr", "bin"], ["usr", "lib"], ["usr", "local"], ["usr", "share"],
      ["var", "lib"], ["var", "log"], ["var", "tmp"]]

/-- Files of a usual system and their first lines. -/
def usualFiles : List (List String × Node) :=
  [(["dev", "null"], .void),
    (["etc", "group"], .file "root:x:0:\n"),
    (["etc", "hostname"], .file "localhost\n"),
    (["etc", "hosts"], .file "127.0.0.1 localhost\n"),
    (["etc", "passwd"], .file "root:x:0:0:root:/root:/bin/sh\n")]

/-- A usual system with an empty working directory. -/
def usual (home : List String) : Disk where
  home := home
  changeable := [home, ["tmp"], ["var", "tmp"], ["dev", "shm"], ["dev", "null"]]
  root :=
    let directories := (usualDirectories ++ [home]).map fun place => (place, Node.directory [])
    (directories ++ usualFiles).foldl (fun root (place, node) => Node.put node place root)
      (.directory [])

end Disk

/-! ### A run of the program -/

/-- What a path to a settings file leads to. -/
def findSettings (disk : Disk) (path : String) : SettingsFile :=
  match disk.textAt path with
  | .ok content => .bytes content.toUTF8
  | .error .notFound => .missing
  | .error _ => .unreadable

/-- What a service has to tell from the moment it listens to its end, if it stops before its first
tick. -/
def Launch.course (launch : Launch) (service : Service) : List ServiceNotice :=
  launch.opening ++ (launch.closing service).2

/-- What there is to tell from the start to the end, and how the program ends. -/
def Launch.outcome (launch : Launch) : List ServiceNotice × Report :=
  match Service.listen? launch.settings with
  | .ok service => (launch.greeting ++ launch.course service, .quiet)
  | .error e => (launch.greeting ++ [.failed e.message], .failure e.message)

/-- The service from its start to its end, with its journal. -/
def Launch.rehearse (launch : Launch) (disk : Disk) : Disk × Report :=
  match launch.settings.common.logFile with
  | none => (disk, launch.outcome.2)
  | some path =>
    match disk.openForAppend path with
    | (disk, .error e) => (disk, .failure e.message)
    | (disk, .ok place) => (disk.append place (launch.lines "" launch.outcome.1), launch.outcome.2)

/-- The program for the words of a command line, in an environment that may name a log file. -/
def rehearse (disk : Disk) (logFile : Option String) (words : List String) : Disk × Report :=
  match (parse logFile words).plan (findSettings disk) with
  | .finish report => (disk, report)
  | .launch launch => launch.rehearse disk

end HeatingPlant.CommandLine
