import HeatingPlant.Toml.Quoted
import HeatingPlant.Toml.Scalar

/-!
# Reading documents

From the text of a document to its table.

## Main definitions

* `deepest` — how far things may nest
* `readPath` — a possibly dotted key
* `readValue`, `readElements`, `readPairs` — a value, and what stands between brackets or braces
* `readBody`, `readSections` — the lines under a header, and all headers
* `read` — a whole document

## Design notes

A document is lines of three kinds: a header, a key with its value, and nothing; each may end in a
comment.  Between brackets and braces line breaks and comments count as blanks, also around an
equals sign, but not inside a dotted key.  Everything is total: loops take the number of characters
as fuel, and brackets, braces and the parts of a key nest to a limited depth.
-/

namespace HeatingPlant.Toml

/-- How deep brackets and braces may nest, and how many parts a key may have. -/
def deepest : Nat := 80

/-- The text without the blanks in front. -/
def skipBlanks (text : List Char) : List Char := text.dropWhile isBlank

/-- Whether a character may stand in a comment. -/
def mayComment (c : Char) : Bool := !isControl c || c = '\r'

/-- The text without the blanks, line breaks and comments in front. -/
def skipVoid (inComment : Bool) : List Char → Option (List Char)
  | [] => some []
  | c :: rest =>
    if c = '\n' then skipVoid false rest
    else if inComment then if mayComment c then skipVoid true rest else none
    else if isBlank c then skipVoid false rest
    else if c = '#' then skipVoid true rest
    else some (c :: rest)

/-- The text after blanks, a comment and the end of the line, if there is nothing else. -/
def skipLine (inComment : Bool) : List Char → Option (List Char)
  | [] => some []
  | c :: rest =>
    if c = '\n' then some rest
    else if inComment then if mayComment c then skipLine true rest else none
    else if isBlank c then skipLine false rest
    else if c = '#' then skipLine true rest
    else none

/-! ## Keys -/

/-- Whether a character may stand in a key without quotes. -/
def isKeyChar (c : Char) : Bool := c.isAlphanum || c = '_' || c = '-'

/-- One part of a key. -/
def readKey? (text : List Char) : Option (String × List Char) :=
  if text.head? = some '"' ∨ text.head? = some '\'' then
    (readLine? text).map fun (key, rest) => (String.ofList key, rest)
  else
    match text.takeWhile isKeyChar with
    | [] => none
    | key => some (String.ofList key, text.dropWhile isKeyChar)

/-- A key of at most `limit` parts: the parts before its last dot, its last part, and the text after
the blanks that follow. -/
def readParts : (limit : Nat) → List Char → Option (List String × String × List Char)
  | 0, _ => none
  | limit + 1, text =>
    match readKey? (skipBlanks text) with
    | none => none
    | some (key, rest) =>
      match skipBlanks rest with
      | '.' :: rest =>
        (readParts limit rest).map fun (path, last, rest) => (key :: path, last, rest)
      | rest => some ([], key, rest)

/-- A key: the parts before its last dot, its last part, and the text after the blanks that follow.
-/
def readPath : List Char → Option (List String × String × List Char) := readParts deepest

/-! ## Values -/

mutual

/-- A value and the text after it; `depth` is how many more brackets and braces may open. -/
def readValue : (fuel depth : Nat) → List Char → Option (Value × List Char)
  | 0, _, _ => none
  | fuel + 1, depth, text =>
    match text with
    | '[' :: rest =>
      if depth = 0 then none
      else (readElements fuel (depth - 1) rest).map fun (elements, rest) => (.array elements, rest)
    | '{' :: rest =>
      if depth = 0 then none
      else
        (readPairs fuel (depth - 1) [] rest).map fun (entries, rest) =>
          (.table .inline entries, rest)
    | '"' :: _ | '\'' :: _ =>
      (readString? text).map fun (string, rest) => (.scalar (.string (String.ofList string)), rest)
    | _ =>
      let scalar := scalarText text
      (readScalar? scalar).map fun value => (.scalar value, text.drop scalar.length)

/-- The elements up to the closing bracket, and the text after it. -/
def readElements : (fuel depth : Nat) → List Char → Option (List Value × List Char)
  | 0, _, _ => none
  | fuel + 1, depth, text => do
    match ← skipVoid false text with
    | ']' :: rest => return ([], rest)
    | text =>
      let (value, text) ← readValue fuel depth text
      match ← skipVoid false text with
      | ']' :: rest => return ([value], rest)
      | ',' :: rest =>
        let (values, rest) ← readElements fuel depth rest
        return (value :: values, rest)
      | _ => none

/-- The entries up to the closing brace, added to those before, and the text after it. -/
def readPairs : (fuel depth : Nat) → Entries → List Char → Option (Entries × List Char)
  | 0, _, _, _ => none
  | fuel + 1, depth, entries, text => do
    match ← skipVoid false text with
    | '}' :: rest => return (entries, rest)
    | text =>
      let (path, key, text) ← readPath text
      match ← skipVoid false text with
      | '=' :: text =>
        let (value, text) ← readValue fuel depth (← skipVoid false text)
        let entries ← entries.define path key value .inline
        match ← skipVoid false text with
        | '}' :: rest => return (entries, rest)
        | ',' :: rest => readPairs fuel depth entries rest
        | _ => none
      | _ => none

end

/-! ## Lines -/

/-- A key with its value, and the text after its line. -/
def readPair? (text : List Char) : Option ((List String × String × Value) × List Char) := do
  match ← readPath text with
  | (path, key, '=' :: rest) =>
    let rest := skipBlanks rest
    let (value, rest) ← readValue (2 * rest.length + 2) deepest rest
    return ((path, key, value), ← skipLine false rest)
  | _ => none

/-- A header. -/
structure Header where
  /-- The parts of its key before the last dot. -/
  path : List String
  /-- The last part of its key. -/
  key : String
  /-- Whether it opens one more element of an array of tables. -/
  isElement : Bool
  deriving DecidableEq, Repr

/-- The rest of a header after its opening bracket, and the text after its line. -/
def readHeader? (text : List Char) : Option (Header × List Char) :=
  match text with
  | '[' :: text =>
    match readPath text with
    | some (path, key, ']' :: ']' :: rest) =>
      (skipLine false rest).map fun rest => (⟨path, key, true⟩, rest)
    | _ => none
  | text =>
    match readPath text with
    | some (path, key, ']' :: rest) =>
      (skipLine false rest).map fun rest => (⟨path, key, false⟩, rest)
    | _ => none

/-- The keys and values up to the next header or the end, in order, and the text from there. -/
def readBody : (fuel : Nat) → List Char →
    Option (List (List String × String × Value) × List Char)
  | 0, _ => none
  | fuel + 1, text => do
    match ← skipVoid false text with
    | [] => return ([], [])
    | '[' :: rest => return ([], '[' :: rest)
    | text =>
      let (pair, rest) ← readPair? text
      let (pairs, rest) ← readBody fuel rest
      return (pair :: pairs, rest)

/-- Keys and values defined one after the other. -/
def defineAll (pairs : List (List String × String × Value)) (entries : Entries) :
    Option Entries :=
  pairs.foldlM (fun entries (path, key, value) => entries.define path key value .header) entries

/-- All headers with the lines under them, added to the root table. -/
def readSections : (fuel : Nat) → Entries → List Char → Option Entries
  | 0, _, _ => none
  | _ + 1, root, [] => some root
  | fuel + 1, root, '[' :: text => do
    let (header, text) ← readHeader? text
    let (pairs, text) ← readBody (text.length + 1) text
    let root ←
      if header.isElement then root.append header.path header.key (defineAll pairs)
      else root.openTable header.path header.key (defineAll pairs)
    readSections fuel root text
  | _ + 1, _, _ :: _ => none

/-- Whether a carriage return stands anywhere but before a line feed. -/
def hasBareReturn : List Char → Bool
  | [] => false
  | '\r' :: '\n' :: rest => hasBareReturn rest
  | '\r' :: _ => true
  | _ :: rest => hasBareReturn rest

/-- The text without a byte order mark in front. -/
def dropMark : List Char → List Char
  | '\ufeff' :: rest => rest
  | text => text

/-- The root table of a document. -/
def read (document : String) : Option Entries := do
  let text := dropMark document.toList
  if hasBareReturn text then none
  else
    let (pairs, rest) ← readBody (text.length + 1) text
    let root ← defineAll pairs []
    readSections (rest.length + 1) root rest

end HeatingPlant.Toml
