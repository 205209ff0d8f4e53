import HeatingPlant.Number.Hex
import HeatingPlant.Toml.Value

/-!
# Bare values

Booleans, numbers, dates and times: the values that need no quotes or brackets.

## Main definitions

* `underscoresFit` — where underscores may stand
* `Integral`, `readIntegral?`, `readReal?` — numbers
* `isDatetime` — dates and times
* `scalarText`, `readScalar?` — any of them

## Design notes

An underscore stands between two digits.  A whole number in another base has digits of that base
only, leading zeros allowed.  One in base ten that has underscores is judged by its outline: what
stands next to an underscore is a digit, of base sixteen even, but elsewhere anything may stand that
no real number has.  A document may hold such an outline, and also a base without digits, as long as
nobody asks for its value.  A real number has digits on both sides of its point.  A date must exist
in the calendar; seconds may be left out, and the sixtieth is allowed for.
-/

namespace HeatingPlant.Toml

/-! ## Numbers -/

/-- Whether each underscore of a text stands between two digits; `afterDigit` says whether the
character in front of the text counts as one. -/
def underscoresFitAfter (isDigit : Char → Bool) (afterDigit : Bool) : List Char → Bool
  | [] => true
  | c :: rest =>
    if c = '_' then
      afterDigit && rest.head?.any isDigit && underscoresFitAfter isDigit false rest
    else underscoresFitAfter isDigit (isDigit c) rest

/-- Whether each underscore of a text stands between two digits. -/
def underscoresFit (isDigit : Char → Bool) (text : List Char) : Bool :=
  underscoresFitAfter isDigit false text

/-- The text without its underscores. -/
def withoutUnderscores (text : List Char) : List Char := text.filter (· ≠ '_')

/-- Whether a character is a digit in the given base. -/
def isDigitIn (base : Nat) (c : Char) : Bool := (Hex.value? c).any (· < base)

/-- The number that digits in the given base spell. -/
def digitsValue (base : Nat) (text : List Char) : Nat :=
  text.foldl (fun value c => value * base + (Hex.value? c).getD 0) 0

/-- The number that a text spells if it has digits in the given base only, and at least one. -/
def digits? (base : Nat) (text : List Char) : Option Nat :=
  if text ≠ [] ∧ text.all (isDigitIn base) then some (digitsValue base text) else none

/-- Whether a text starts with a zero that is not all of it. -/
def hasLeadingZero (text : List Char) : Bool := text.head? = some '0' && text ≠ ['0']

/-- The sign in front of a text and what follows it. -/
def splitSign : List Char → Bool × List Char
  | '-' :: rest => (true, rest)
  | '+' :: rest => (false, rest)
  | text => (false, text)

/-- The number that decimal digits with a sign, or without, spell. -/
def signedDigits? (text : List Char) : Option Int :=
  let (negative, rest) := splitSign text
  (digits? 10 rest).map fun (n : Nat) => if negative then -(n : Int) else (n : Int)

/-- What has the outline of a whole number: its value, unless it spells none. -/
abbrev Integral := Option Int

/-- A whole number in another base than ten, after the letter that tells the base. -/
def readRadix? (base : Nat) (text : List Char) : Option Integral :=
  let digits := withoutUnderscores text
  if underscoresFit (isDigitIn base) text ∧ digits.all (isDigitIn base) then
    some ((digits? base digits).map Int.ofNat)
  else none

/-- Whether a character may stand in the outline of a whole number after its first digits. -/
def mayFollowDigits (c : Char) : Bool := c ≠ ' ' && c ≠ '.' && c ≠ 'e' && c ≠ 'E'

/-- Whether a text, after its sign, has the outline of a whole number in base ten: digits, and after
an underscore almost anything. -/
def hasOutline (text : List Char) : Bool :=
  let rest := text.dropWhile (isDigitIn 10)
  text ≠ [] && !hasLeadingZero text && (rest = [] || rest.head? = some '_') &&
    rest.all mayFollowDigits

/-- A whole number in base ten. -/
def readDecimal? (text : List Char) : Option Integral :=
  if hasOutline (splitSign text).2 ∧ underscoresFit (isDigitIn 16) text then
    some (signedDigits? (withoutUnderscores text))
  else none

/-- A whole number. -/
def readIntegral? : List Char → Option Integral
  | '0' :: 'x' :: rest => readRadix? 16 rest
  | '0' :: 'o' :: rest => readRadix? 8 rest
  | '0' :: 'b' :: rest => readRadix? 2 rest
  | text => readDecimal? text

/-- The text before the first character that satisfies `stop`, and the text after it, if there is
such a character. -/
def cut (stop : Char → Bool) (text : List Char) : List Char × Option (List Char) :=
  match text.dropWhile (!stop ·) with
  | [] => (text, none)
  | _ :: rest => (text.takeWhile (!stop ·), some rest)

/-- The exponent after the letter that announces it; zero if there is none. -/
def readExponent? : Option (List Char) → Option Int
  | none => some 0
  | some text => signedDigits? text

/-- The digits after a point and how many they are; none if there is no point. -/
def readFraction? : Option (List Char) → Option (Nat × Nat)
  | none => some (0, 0)
  | some text => (digits? 10 text).map fun value => (value, text.length)

/-- A real number without its sign and its underscores. -/
def readMagnitude? (negative : Bool) (text : List Char) : Option Number :=
  if text = "inf".toList then some (.infinite negative)
  else if text = "nan".toList then some .notANumber
  else do
    let (mantissa, exponentText) := cut (fun c => c = 'e' || c = 'E') text
    let (wholeText, fractionText) := cut (· = '.') mantissa
    if hasLeadingZero wholeText then none
    else
      let whole ← digits? 10 wholeText
      let (fraction, places) ← readFraction? fractionText
      let exponent ← readExponent? exponentText
      return .decimal negative (whole * Nat.pow 10 places + fraction) (exponent - places)

/-- A real number. -/
def readReal? (text : List Char) : Option Number :=
  if underscoresFit (isDigitIn 10) text then
    let (negative, rest) := splitSign text
    readMagnitude? negative (withoutUnderscores rest)
  else none

/-! ## Dates and times -/

/-- The number that exactly the given characters spell. -/
def fixedDigits? (text : List Char) : Option Nat :=
  if text.all (·.isDigit) then digits? 10 text else none

/-- Whether a year has a leap day. -/
def isLeapYear (year : Nat) : Bool :=
  year % 4 = 0 && (year % 100 ≠ 0 || year % 400 = 0)

/-- The number of days of a month. -/
def daysIn (year month : Nat) : Nat :=
  if month = 2 then if isLeapYear year then 29 else 28
  else if month = 4 ∨ month = 6 ∨ month = 9 ∨ month = 11 then 30
  else 31

/-- Whether a text is a date. -/
def isDate : List Char → Bool
  | [y1, y2, y3, y4, '-', m1, m2, '-', d1, d2] =>
    match fixedDigits? [y1, y2, y3, y4], fixedDigits? [m1, m2], fixedDigits? [d1, d2] with
    | some year, some month, some day =>
      1 ≤ month && month ≤ 12 && 1 ≤ day && day ≤ daysIn year month
    | _, _, _ => false
  | _ => false

/-- Whether two characters spell a number up to `largest`. -/
def isField (largest : Nat) (tens units : Char) : Bool :=
  match fixedDigits? [tens, units] with
  | some value => value ≤ largest
  | none => false

/-- Whether a text is hours and minutes. -/
def isHourMinute : List Char → Bool
  | [h1, h2, ':', m1, m2] => isField 23 h1 h2 && isField 59 m1 m2
  | _ => false

/-- Whether a text, after hours and minutes, is nothing or seconds and their fraction. -/
def isSeconds : List Char → Bool
  | [] => true
  | ':' :: s1 :: s2 :: rest =>
    isField 60 s1 s2 &&
      match rest with
      | [] => true
      | '.' :: fraction => !fraction.isEmpty && fraction.all (·.isDigit)
      | _ => false
  | _ => false

/-- Whether a text is a time of day. -/
def isTime (text : List Char) : Bool :=
  isHourMinute (text.take 5) && isSeconds (text.drop 5)

/-- Whether a character announces the distance from universal time. -/
def startsOffset (c : Char) : Bool := c = 'Z' || c = 'z' || c = '+' || c = '-'

/-- Whether a text is nothing or a distance from universal time. -/
def isOffset : List Char → Bool
  | [] | ['Z'] | ['z'] => true
  | sign :: rest => (sign = '+' || sign = '-') && isHourMinute rest

/-- Whether a text is a time of day with or without its distance from universal time. -/
def isZonedTime (text : List Char) : Bool :=
  isTime (text.takeWhile (!startsOffset ·)) && isOffset (text.dropWhile (!startsOffset ·))

/-- Whether a character may stand between a date and a time. -/
def separatesTime (c : Char) : Bool := c = 'T' || c = 't' || c = ' '

/-- Whether a text is a date, a time or both. -/
def isDatetime (text : List Char) : Bool :=
  isTime text || isDate text ||
    match text.drop 10 with
    | separator :: time => isDate (text.take 10) && separatesTime separator && isZonedTime time
    | [] => false

/-! ## All of them -/

/-- The characters that end a bare value. -/
def scalarEnds : List Char := ['=', ',', '[', ']', '{', '}', '#', ' ', '\t', '\r', '\n']

/-- Whether a character may stand in a bare value. -/
def isScalarChar (c : Char) : Bool := !scalarEnds.contains c

/-- Whether a character, after blanks, goes on with the bare value in front of them. -/
def resumesScalar (c : Char) : Bool := isScalarChar c && c ≠ '.' && c ≠ '"' && c ≠ '\''

/-- Whether a character is a blank inside a line. -/
def isSpace (c : Char) : Bool := c = ' ' || c = '\t'

/-- The text of the bare value in front: as far as its characters go, and over blanks if such
characters follow. -/
def scalarText : List Char → List Char
  | [] => []
  | c :: rest =>
    if isScalarChar c || isSpace c && (rest.dropWhile isSpace).head?.any resumesScalar then
      c :: scalarText rest
    else []

/-- The scalar that an outline stands for. -/
def Scalar.ofIntegral (text : List Char) : Integral → Scalar
  | some value => .integer value
  | none => .illegible (String.ofList text)

/-- The value that a bare text denotes. -/
def readScalar? (text : List Char) : Option Scalar :=
  if text = "true".toList then some (.boolean true)
  else if text = "false".toList then some (.boolean false)
  else if isDatetime text then some (.datetime (String.ofList text))
  else (readIntegral? text).map (.ofIntegral text) <|> (readReal? text).map .real

end HeatingPlant.Toml
