import HeatingPlant.Journal.Notice

/-!
# Lines of the journal

An entry of the journal on one line, for people or as JSON.

## Main definitions

* `Entry.plainLine`, `Entry.jsonLine` — the two forms
* `journalLines` — the lines of those entries that are urgent enough
-/

namespace HeatingPlant

/-- A quantity as a journal shows it: a whole number keeps a digit after the point. -/
def quantityText (x : Float) : String :=
  let text := Decimal.shortestText x
  if x.isFinite && !text.toList.contains '.' then text ++ ".0" else text

/-- A character within a JSON string. -/
def jsonChar (c : Char) : List Char :=
  if c = '"' then ['\\', '"']
  else if c = '\\' then ['\\', '\\']
  else if c = '\n' then ['\\', 'n']
  else if c = '\r' then ['\\', 'r']
  else if c = '\t' then ['\\', 't']
  else if c.toNat < 32 then ['\\', 'u', '0', '0'] ++ Hex.digits 2 c.toNat
  else [c]

/-- A JSON string. -/
def jsonString (text : String) : String :=
  String.ofList ('"' :: text.toList.flatMap jsonChar ++ ['"'])

namespace FieldValue

/-- A value in a line for people. -/
def plain : FieldValue → String
  | natural value => Decimal.naturalText value
  | real value => quantityText value
  | text value => value
  | flag value => if value then "true" else "false"

/-- A value in JSON; a quantity that is not finite has none there. -/
def json : FieldValue → String
  | natural value => Decimal.naturalText value
  | real value => if value.isFinite then quantityText value else "null"
  | text value => jsonString value
  | flag value => if value then "true" else "false"

end FieldValue

namespace Entry

/-- An entry as a line for people. -/
def plainLine (time : String) (entry : Entry) : String :=
  let fields := entry.fields.map fun (name, value) => " " ++ name ++ "=" ++ value.plain
  time ++ " " ++ entry.level.label ++ " " ++ entry.message ++ String.join fields ++ "\n"

/-- An entry as a line of JSON. -/
def jsonLine (time : String) (entry : Entry) : String :=
  let fields := entry.fields.map fun (name, value) => "," ++ jsonString name ++ ":" ++ value.json
  "\x7b\"timestamp\":" ++ jsonString time ++ ",\"level\":" ++ jsonString entry.level.label ++
    ",\"fields\":\x7b\"message\":" ++ jsonString entry.message ++ String.join fields ++ "\x7d\x7d\n"

/-- An entry as a line of either form. -/
def line (json : Bool) (time : String) (entry : Entry) : String :=
  if json then entry.jsonLine time else entry.plainLine time

end Entry

/-- The lines of those entries that are urgent enough. -/
def journalLines (least : Level) (json : Bool) (time : String) (entries : List Entry) : String :=
  String.join
    ((entries.filter fun entry => least.urgency ≤ entry.level.urgency).map (·.line json time))

end HeatingPlant
