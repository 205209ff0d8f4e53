import HeatingPlant.Number.Hex
import HeatingPlant.Number.Word
import HeatingPlant.Decimal.Text

/-!
# Endpoints

The network address and port that the service listens on.

## Main definitions

* `Host` — an address of either family
* `Endpoint` — an address and a port
* `Endpoint.text` — its written form
* `Endpoint.ofText?` — the endpoint that a text denotes

## Design notes

An IPv4 address is four decimal numbers without leading zeros.  An IPv6 address stands in brackets:
eight groups of up to four hexadecimal digits, of which one run of zeros may be left out, and the
last two of which may be written as an IPv4 address; a scope may follow after a percent sign.  The
port is a decimal number, leading zeros allowed.  The written form leaves out the first of the
longest runs of at least two zero groups, and writes an IPv4-mapped address with an IPv4 tail.
-/

namespace HeatingPlant

/-- A network address. -/
inductive Host where
  /-- The four numbers of an IPv4 address. -/
  | v4 (a b c d : UInt8)
  /-- The eight groups of an IPv6 address, and its scope, zero if it has none. -/
  | v6 (groups : Vector UInt16 8) (scope : UInt32)
  deriving DecidableEq, Repr

/-- A network address and a port. -/
structure Endpoint where
  /-- The address. -/
  host : Host
  /-- The port. -/
  port : UInt16
  deriving DecidableEq, Repr

namespace Endpoint

/-! ## Writing -/

/-- An IPv4 address. -/
def v4Text (a b c d : UInt8) : String :=
  ".".intercalate ([a, b, c, d].map fun part => Decimal.naturalText part.toNat)

/-- A group of an IPv6 address, without leading zeros. -/
def groupText (group : UInt16) : String := String.ofList (Nat.toDigits 16 group.toNat)

/-- Groups with colons between them. -/
def groupsText (groups : List UInt16) : String := ":".intercalate (groups.map groupText)

/-- Length of the run of zeros that the groups start with. -/
def zeroRun (groups : List UInt16) : Nat := (groups.takeWhile (· = 0)).length

/-- Start and length of the first of the longest runs of zeros, counting from `start` on. -/
def longestZeroRun (start : Nat) : List UInt16 → Nat × Nat
  | [] => (0, 0)
  | group :: rest =>
    let here := zeroRun (group :: rest)
    let later := longestZeroRun (start + 1) rest
    if here = 0 ∨ here < later.2 then later else (start, here)

/-- An IPv6 address without its scope. -/
def v6Text (groups : Vector UInt16 8) : String :=
  match groups.toList with
  | [0, 0, 0, 0, 0, 0xffff, g, h] =>
    match Word.toBytes g, Word.toBytes h with
    | [a, b], [c, d] => "::ffff:" ++ v4Text a b c d
    | _, _ => ""
  | list =>
    let (start, length) := longestZeroRun 0 list
    if 1 < length then
      groupsText (list.take start) ++ "::" ++ groupsText (list.drop (start + length))
    else groupsText list

/-- An endpoint in its written form. -/
def text (endpoint : Endpoint) : String :=
  let port := Decimal.naturalText endpoint.port.toNat
  match endpoint.host with
  | .v4 a b c d => v4Text a b c d ++ ":" ++ port
  | .v6 groups scope =>
    let scopeText := if scope = 0 then "" else "%" ++ Decimal.naturalText scope.toNat
    "[" ++ v6Text groups ++ scopeText ++ "]:" ++ port

/-! ## Reading

Each reader takes what it can off the front and answers with the rest. -/

/-- The value of a decimal digit. -/
def decimalDigit? (c : Char) : Option Nat :=
  if '0' ≤ c ∧ c ≤ '9' then some (c.toNat - 48) else none

/-- The digits that `digit?` knows at the front of a text, and the rest. -/
def digitsAtFront (digit? : Char → Option Nat) : List Char → List Nat × List Char
  | [] => ([], [])
  | c :: rest =>
    match digit? c with
    | some value => let (values, last) := digitsAtFront digit? rest; (value :: values, last)
    | none => ([], c :: rest)

/-- The number with the given digits in the given base. -/
def numberOf (base : Nat) (digits : List Nat) : Nat :=
  digits.foldl (fun value digit => value * base + digit) 0

/-- A number of one to three decimal digits below 256, without a leading zero. -/
def readByte (text : List Char) : Option (UInt8 × List Char) :=
  let (digits, rest) := digitsAtFront decimalDigit? text
  let value := numberOf 10 digits
  if digits = [] ∨ 3 < digits.length ∨ 255 < value ∨
    (digits.head? = some 0 ∧ 1 < digits.length)
  then none
  else some (UInt8.ofNat value, rest)

/-- A decimal number below `limit`, leading zeros allowed. -/
def readDecimal (limit : Nat) (text : List Char) : Option (Nat × List Char) :=
  let (digits, rest) := digitsAtFront decimalDigit? text
  let value := numberOf 10 digits
  if digits = [] ∨ limit ≤ value then none else some (value, rest)

/-- A group of one to four hexadecimal digits. -/
def readGroup (text : List Char) : Option (UInt16 × List Char) :=
  let (digits, rest) := digitsAtFront Hex.value? text
  if digits = [] ∨ 4 < digits.length then none
  else some (UInt16.ofNat (numberOf 16 digits), rest)

/-- One given character. -/
def readChar (c : Char) : List Char → Option (List Char)
  | d :: rest => if c = d then some rest else none
  | [] => none

/-- The four numbers of an IPv4 address. -/
def readV4 (text : List Char) : Option ((UInt8 × UInt8 × UInt8 × UInt8) × List Char) := do
  let (a, text) ← readByte text
  let text ← readChar '.' text
  let (b, text) ← readByte text
  let text ← readChar '.' text
  let (c, text) ← readByte text
  let text ← readChar '.' text
  let (d, text) ← readByte text
  return ((a, b, c, d), text)

/-- `text` after a colon, which every group but the first needs in front of it. -/
def afterColon (first : Bool) (text : List Char) : Option (List Char) :=
  if first then some text else readChar ':' text

/-- Groups with colons between them, `limit` at most, the last two of which may be an IPv4 address;
whether they were, and the rest. -/
def readGroups (first : Bool) : (limit : Nat) → List Char → List UInt16 × Bool × List Char
  | 0, text => ([], false, text)
  | limit + 1, text =>
    let v4 := if limit = 0 then none else (afterColon first text).bind readV4
    match v4 with
    | some ((a, b, c, d), rest) => ([Word.ofBytes a b, Word.ofBytes c d], true, rest)
    | none =>
      match (afterColon first text).bind readGroup with
      | some (group, rest) =>
        let (groups, endedInV4, last) := readGroups false limit rest
        (group :: groups, endedInV4, last)
      | none => ([], false, text)

/-- The eight groups of an IPv6 address. -/
def readV6 (text : List Char) : Option (List UInt16 × List Char) :=
  let (head, endedInV4, rest) := readGroups true 8 text
  if head.length = 8 then some (head, rest)
  else if endedInV4 then none
  else do
    let rest ← readChar ':' rest
    let rest ← readChar ':' rest
    let (tail, _, rest) := readGroups true (7 - head.length) rest
    return (head ++ List.replicate (8 - head.length - tail.length) 0 ++ tail, rest)

/-- A colon and a port. -/
def readPort (text : List Char) : Option (UInt16 × List Char) := do
  let text ← readChar ':' text
  let (port, text) ← readDecimal 65536 text
  return (UInt16.ofNat port, text)

/-- An IPv4 endpoint. -/
def readV4Endpoint (text : List Char) : Option (Endpoint × List Char) := do
  let ((a, b, c, d), text) ← readV4 text
  let (port, text) ← readPort text
  return (⟨.v4 a b c d, port⟩, text)

/-- An IPv6 endpoint, in brackets and with its scope. -/
def readV6Endpoint (text : List Char) : Option (Endpoint × List Char) := do
  let text ← readChar '[' text
  let (groups, text) ← readV6 text
  let (scope, text) ←
    match readChar '%' text with
    | some text => readDecimal 4294967296 text
    | none => some (0, text)
  let text ← readChar ']' text
  let (port, text) ← readPort text
  if h : groups.length = 8 then
    return (⟨.v6 ⟨groups.toArray, by simp [h]⟩ (UInt32.ofNat scope), port⟩, text)
  else none

/-- The endpoint that the whole of a text denotes. -/
def ofText? (text : String) : Option Endpoint :=
  match (readV4Endpoint text.toList).or (readV6Endpoint text.toList) with
  | some (endpoint, []) => some endpoint
  | _ => none

/-- The endpoint on every local address at the standard port of the protocol. -/
def standard : Endpoint := ⟨.v4 0 0 0 0, 502⟩

/-- A loopback endpoint; port 0 asks for any free port. -/
def loopback (port : UInt16) : Endpoint := ⟨.v4 127 0 0 1, port⟩

end Endpoint

end HeatingPlant
