import HeatingPlant.Number.Hex

/-!
# Quoted text

Strings in double quotes, with escapes, and in single quotes, without; each on one line or on
several.

## Main definitions

* `closing?` — the end of a string
* `readBasic`, `readLiteral` — the rest of a string after its opening quotes
* `readString?` — a whole string

## Design notes

Strings are read character by character; `Pending` is what the characters so far leave open.  Three
quotes close a string of several lines, and up to two more in front of them belong to it.  A
carriage return occurs only before a line feed, which is checked for the whole document.
-/

namespace HeatingPlant.Toml

/-- Whether a character may not stand in a text as it is. -/
def isControl (c : Char) : Bool := c.toNat < 32 && c ≠ '\t' || c.toNat = 127

/-- Whether a character is a blank; a carriage return counts as one. -/
def isBlank (c : Char) : Bool := c = ' ' || c = '\t' || c = '\r'

/-- Whether a character may stand in a string as it is. -/
def mayStand (multiline : Bool) (c : Char) : Bool :=
  !isControl c || multiline && (c = '\n' || c = '\r')

/-- If the string ends here: the quotes that still belong to it, and the text after it. -/
def closing? (multiline : Bool) (quote : Char) (text : List Char) :
    Option (List Char × List Char) :=
  if multiline then
    let run := (text.take 5).takeWhile (· = quote)
    if 3 ≤ run.length then some (run.drop 3, text.drop run.length) else none
  else if text.head? = some quote then some ([], text.drop 1)
  else none

/-- What an escape leaves open. -/
inductive Pending where
  /-- Nothing. -/
  | nothing
  /-- A backslash: its letter must come. -/
  | escape
  /-- A code point: so many more digits must come after digits of that value. -/
  | code (digits value : Nat)
  /-- A backslash and blanks: the end of the line must come. -/
  | lineEnd
  /-- A backslash and the end of its line: blanks and empty lines are dropped. -/
  | margin
  deriving DecidableEq, Repr

/-- Whether a string may end where so much is left open. -/
def Pending.mayEnd : Pending → Bool
  | nothing | margin => true
  | _ => false

/-- The character that a letter stands for after a backslash. -/
def escaped? : Char → Option Char
  | 'b' => some '\x08'
  | 't' => some '\t'
  | 'n' => some '\n'
  | 'f' => some '\x0c'
  | 'r' => some '\r'
  | 'e' => some '\x1b'
  | '"' => some '"'
  | '\\' => some '\\'
  | _ => none

/-- The number of digits of the code point that a letter announces after a backslash. -/
def codeDigits? : Char → Option Nat
  | 'x' => some 2
  | 'u' => some 4
  | 'U' => some 8
  | _ => none

/-- The character with a code point. -/
def charOfCode? (code : Nat) : Option Char :=
  if _h : code.isValidChar then some (Char.ofNat code) else none

/-- What a character after a backslash amounts to: a character of the string, if any, and what it
leaves open. -/
def afterBackslash? (multiline : Bool) (c : Char) : Option (Option Char × Pending) :=
  match escaped? c, codeDigits? c with
  | some plain, _ => some (some plain, .nothing)
  | none, some digits => some (none, .code digits 0)
  | none, none =>
    if multiline ∧ c = '\n' then some (none, .margin)
    else if multiline ∧ isBlank c then some (none, .lineEnd)
    else none

/-- What one character of a string in double quotes, before its end, amounts to: a character of the
string, if any, and what it leaves open. -/
def readChar? (multiline : Bool) (pending : Pending) (c : Char) : Option (Option Char × Pending) :=
  let plain :=
    if c = '\\' then some (none, .escape)
    else if mayStand multiline c then some (some c, .nothing)
    else none
  match pending with
  | .nothing => plain
  | .escape => afterBackslash? multiline c
  | .code digits value =>
    (Hex.value? c).bind fun digit =>
      let value := value * 16 + digit
      if digits ≤ 1 then (charOfCode? value).map fun read => (some read, .nothing)
      else some (none, .code (digits - 1) value)
  | .lineEnd =>
    if c = '\n' then some (none, .margin)
    else if isBlank c then some (none, .lineEnd)
    else none
  | .margin => if c = '\n' || isBlank c then some (none, .margin) else plain

/-- The rest of a string in double quotes and the text after it. -/
def readBasic (multiline : Bool) (pending : Pending) : List Char → Option (List Char × List Char)
  | [] => none
  | c :: rest =>
    match if pending.mayEnd then closing? multiline '"' (c :: rest) else none with
    | some result => some result
    | none =>
      match readChar? multiline pending c with
      | some (read, pending) =>
        (readBasic multiline pending rest).map fun (text, last) => (read.toList ++ text, last)
      | none => none

/-- The rest of a string in single quotes and the text after it. -/
def readLiteral (multiline : Bool) : List Char → Option (List Char × List Char)
  | [] => none
  | c :: rest =>
    match closing? multiline '\'' (c :: rest) with
    | some result => some result
    | none =>
      if mayStand multiline c then
        (readLiteral multiline rest).map fun (text, last) => (c :: text, last)
      else none

/-- The text without the line break that directly follows opening quotes. -/
def dropFirstBreak : List Char → List Char
  | '\r' :: '\n' :: rest => rest
  | '\n' :: rest => rest
  | text => text

/-- A string on one line, and the text after it. -/
def readLine? : List Char → Option (List Char × List Char)
  | '"' :: rest => readBasic false .nothing rest
  | '\'' :: rest => readLiteral false rest
  | _ => none

/-- A string, and the text after it. -/
def readString? : List Char → Option (List Char × List Char)
  | '"' :: '"' :: '"' :: rest => readBasic true .nothing (dropFirstBreak rest)
  | '\'' :: '\'' :: '\'' :: rest => readLiteral true (dropFirstBreak rest)
  | text => readLine? text

end HeatingPlant.Toml
