import HeatingPlant.Decimal.Text
import HeatingPlant.Toml.Value

/-!
# Writing documents

From sections of keys and scalar values to the text of a document.

## Main definitions

* `Quoting`, `quotingOf` — the four forms of a string, and the one that suits a text
* `stringText`, `numberText`, `scalarText` — scalar values
* `Section`, `write` — a document

## Design notes

A string takes the first of these forms that needs no escapes: double quotes, single quotes, three
double quotes, three single quotes.  If none does, it is escaped between double quotes, three of
them if it has several lines.  A tab needs no escape, but gets one between double quotes.  A real
number always has a point.
-/

namespace HeatingPlant.Toml

/-- The forms of a string. -/
inductive Quoting where
  | basic
  | literal
  | basicLines
  | literalLines
  deriving DecidableEq, Repr

/-- The length of the longest run of `quote` in a text, after a run of `before` that took `longest`
at most so far. -/
def longestRun (quote : Char) (before longest : Nat) : List Char → Nat
  | [] => longest
  | c :: rest =>
    if c = quote then longestRun quote (before + 1) (max longest (before + 1)) rest
    else longestRun quote 0 longest rest

/-- Whether a character can be written in no other way than by an escape; a tab and a line break can
stand as they are. -/
def needsEscape (c : Char) : Bool := c.toNat < 32 && c ≠ '\n' && c ≠ '\t' || c.toNat = 127

/-- The form that suits a text. -/
def quotingOf (text : List Char) : Quoting :=
  let escapes := text.any needsEscape
  let backslash := text.contains '\\'
  let newline := text.contains '\n'
  let doubles := longestRun '"' 0 0 text
  let singles := longestRun '\'' 0 0 text
  if !escapes && !backslash && doubles = 0 && !newline then .basic
  else if !escapes && singles = 0 && !newline then .literal
  else if !escapes && !backslash && doubles ≤ 2 then .basicLines
  else if !escapes && singles ≤ 2 then .literalLines
  else if newline then .basicLines
  else .basic

/-- The upper-case hexadecimal digit for a value below sixteen. -/
def upperDigit (value : Nat) : Char :=
  if value < 10 then Char.ofNat (48 + value) else Char.ofNat (55 + value)

/-- The escape of a control character as a code point. -/
def codeEscape (c : Char) : List Char :=
  ['\\', 'u', '0', '0', upperDigit (c.toNat / 16), upperDigit (c.toNat % 16)]

/-- A character between double quotes, other than a double quote. -/
def escape (lines : Bool) (c : Char) : List Char :=
  if c = '\\' then ['\\', '\\']
  else if c = '\n' then if lines then ['\n'] else ['\\', 'n']
  else if c = '\t' then ['\\', 't']
  else if c = '\r' then ['\\', 'r']
  else if c = '\x08' then ['\\', 'b']
  else if c = '\x0c' then ['\\', 'f']
  else if needsEscape c then codeEscape c
  else [c]

/-- A text between double quotes, after `run` of them that were written as they are.  On several
lines every third of a run of double quotes is escaped, otherwise each. -/
def escapeAll (lines : Bool) (run : Nat) : List Char → List Char
  | [] => []
  | c :: rest =>
    if c = '"' then
      if lines ∧ run < 2 then '"' :: escapeAll lines (run + 1) rest
      else '\\' :: '"' :: escapeAll lines 0 rest
    else escape lines c ++ escapeAll lines 0 rest

/-- What stands on both sides of a string. -/
def Quoting.delimiter : Quoting → List Char
  | basic => ['"']
  | literal => ['\'']
  | basicLines => ['"', '"', '"']
  | literalLines => ['\'', '\'', '\'']

/-- A text between its delimiters. -/
def Quoting.body (text : List Char) : Quoting → List Char
  | basic => escapeAll false 0 text
  | literal => text
  | basicLines => (if text.contains '\n' then ['\n'] else []) ++ escapeAll true 0 text
  | literalLines => (if text.contains '\n' then ['\n'] else []) ++ text

/-- A string. -/
def stringText (text : String) : List Char :=
  let quoting := quotingOf text.toList
  quoting.delimiter ++ quoting.body text.toList ++ quoting.delimiter

/-- The digits of a number, with a point and at least one digit on each side of it. -/
def decimalText (digits : Nat) (exponent : Int) : List Char :=
  if 0 ≤ exponent then Decimal.positional ⟨digits, exponent⟩ ++ ['.', '0']
  else Decimal.positional ⟨digits, exponent⟩

/-- The sign of a number. -/
def signText (negative : Bool) : List Char := if negative then ['-'] else []

/-- A real number. -/
def numberText : Number → List Char
  | .decimal negative digits exponent => signText negative ++ decimalText digits exponent
  | .infinite negative => signText negative ++ ['i', 'n', 'f']
  | .notANumber => ['n', 'a', 'n']

/-- The decimal with the fewest digits that reads back as a `Float`. -/
def Number.ofFloat (x : Float) : Number :=
  match Decimal.Binary64.ofFloat x with
  | .notANumber => notANumber
  | .infinite negative => infinite negative
  | .finite negative mantissa exponent =>
    let shortest := Decimal.shortest mantissa exponent
    decimal negative shortest.digits shortest.exponent

/-- A whole number. -/
def integerText (value : Int) : List Char :=
  signText (value < 0) ++ Nat.toDigits 10 value.natAbs

/-- A scalar value. -/
def valueText : Scalar → List Char
  | .string text => stringText text
  | .integer value => integerText value
  | .real value => numberText value
  | .boolean value => if value then "true".toList else "false".toList
  | .datetime text | .illegible text => text.toList

/-- A name and the keys under it, with their values. -/
structure Section where
  /-- The name. -/
  name : String
  /-- The keys and their values. -/
  lines : List (String × Scalar)
  deriving DecidableEq, Repr

/-- A key and its value on a line. -/
def lineText (line : String × Scalar) : List Char :=
  line.1.toList ++ [' ', '=', ' '] ++ valueText line.2 ++ ['\n']

/-- A header and the lines under it. -/
def sectionText (part : Section) : List Char :=
  '[' :: part.name.toList ++ [']', '\n'] ++ part.lines.flatMap lineText

/-- A document whose names and keys need no quotes: its sections, with an empty line between two. -/
def write (sections : List Section) : String :=
  String.ofList (['\n'].intercalate (sections.map sectionText))

end HeatingPlant.Toml
