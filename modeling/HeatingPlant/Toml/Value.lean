/-!
# Documents

What a TOML document says, and the rules by which its lines come together in one table.

## Main definitions

* `Number` — a real number as written
* `Scalar` — strings, numbers, booleans and dates
* `Value` — scalars, arrays and tables
* `Entries` — the keys of a table and their values
* `Entries.alter` — a change inside the table at the end of a path
* `Entries.define`, `Entries.openTable`, `Entries.append` — the three kinds of change

## Design notes

A table remembers what brought it about, since that decides what may still be added to it.  A
header may pass through any table but an inline one, and may name a table that only deeper headers
implied so far.  A dotted key may pass only through tables that some path implied, and must end in
one that a dotted key made.  A path that meets an array of tables goes on in its last element.  The
order of keys means nothing.
-/

namespace HeatingPlant.Toml

/-- A real number as written. -/
inductive Number where
  /-- The number `digits * 10 ^ exponent`, or its negative. -/
  | decimal (negative : Bool) (digits : Nat) (exponent : Int)
  /-- An infinity. -/
  | infinite (negative : Bool)
  /-- Not a number. -/
  | notANumber
  deriving DecidableEq, Repr

/-- The nearest `Float`; `none` if a decimal lies beyond the largest. -/
def Number.toFloat? : Number → Option Float
  | decimal negative digits exponent =>
    let magnitude := Float.ofScientific digits (exponent < 0) exponent.natAbs
    if magnitude.isFinite then some (if negative then -magnitude else magnitude) else none
  | infinite negative => some (if negative then -(1 / 0) else 1 / 0)
  | notANumber => some (0 / 0)

/-- What brought a table about. -/
inductive Origin where
  /-- Its own header. -/
  | header
  /-- The header of a table inside it. -/
  | implied
  /-- A dotted key that goes through it. -/
  | dotted
  /-- Braces. -/
  | inline
  deriving DecidableEq, Repr

/-- A value without parts. -/
inductive Scalar where
  | string (text : String)
  | integer (value : Int)
  | real (value : Number)
  | boolean (value : Bool)
  /-- A date, a time or both, as written. -/
  | datetime (text : String)
  /-- What has the outline of a whole number but is none, as written. -/
  | illegible (text : String)
  deriving DecidableEq, Repr

/-- A value of a document. -/
inductive Value where
  | scalar (value : Scalar)
  | array (elements : List Value)
  /-- An array whose elements have headers of their own. -/
  | tables (elements : List Value)
  | table (origin : Origin) (entries : List (String × Value))
  deriving Repr

/-- The keys of a table and their values. -/
abbrev Entries := List (String × Value)

namespace Entries

/-- The entries with the value of a key replaced, or added at the end. -/
def set (key : String) (value : Value) : Entries → Entries
  | [] => [(key, value)]
  | entry :: rest =>
    if entry.1 = key then (key, value) :: rest else entry :: set key value rest

/-- Whether a path may pass through a table. -/
def passable (dotted : Bool) : Origin → Bool
  | .inline => false
  | .header => !dotted
  | .implied | .dotted => true

/-- The entries with `change` made inside the table at the end of `path`, which is created if need
be; `none` if the path is blocked or the change is refused. -/
def alter (dotted : Bool) (change : Origin → Entries → Option Entries) :
    (path : List String) → Origin → Entries → Option Entries
  | [], origin, entries => change origin entries
  | key :: path, _, entries =>
    match entries.lookup key with
    | none =>
      let origin := if dotted then .dotted else .implied
      (alter dotted change path origin []).map fun inner => entries.set key (.table origin inner)
    | some (.table origin inner) =>
      if passable dotted origin then
        (alter dotted change path origin inner).map fun inner =>
          entries.set key (.table origin inner)
      else none
    | some (.tables elements) =>
      match elements.getLast? with
      | some (.table origin inner) =>
        (alter dotted change path origin inner).map fun inner =>
          entries.set key (.tables (elements.dropLast ++ [.table origin inner]))
      | _ => none
    | some _ => none

/-- A value defined under a possibly dotted key. -/
def define (path : List String) (key : String) (value : Value) (origin : Origin)
    (entries : Entries) : Option Entries :=
  alter true
    (fun innermost inner =>
      if decide (innermost = .dotted) = path.isEmpty then none
      else if (inner.lookup key).isSome then none
      else some (inner.set key value))
    path origin entries

/-- The entries that a header finds in the table it names; `none` if that is taken. -/
def reopen (key : String) (entries : Entries) : Option Entries :=
  match entries.lookup key with
  | none => some []
  | some (.table .implied inner) => some inner
  | some _ => none

/-- The table of a header, filled in by `fill`. -/
def openTable (path : List String) (key : String) (fill : Entries → Option Entries)
    (root : Entries) : Option Entries :=
  alter false
    (fun _ entries => do
      let inner ← fill (← entries.reopen key)
      return entries.set key (.table .header inner))
    path .header root

/-- One more element of an array of tables, filled in by `fill`. -/
def append (path : List String) (key : String) (fill : Entries → Option Entries)
    (root : Entries) : Option Entries :=
  alter false
    (fun _ entries => do
      let element := Value.table .header (← fill [])
      match entries.lookup key with
      | none => return entries.set key (.tables [element])
      | some (.tables elements) => return entries.set key (.tables (elements ++ [element]))
      | some _ => none)
    path .header root

end Entries

end HeatingPlant.Toml
