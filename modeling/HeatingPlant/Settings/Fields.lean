import HeatingPlant.Settings.Sections
import HeatingPlant.Toml.Writer

/-!
# Fields of settings

How the values of a document become fields of a record, and back.

## Main definitions

* `Codec` — a type whose values a document can hold
* `Field` — a named part of a record, with its codec
* `Toml.Value.isReadable` — whether a value could be read at all
* `readRecord`, `writeRecord` — a record from a document's value, and its lines

## Design notes

A record starts from its defaults and takes the fields that the document names.  An array stands for
the fields in order: missing ones keep their defaults and extra ones are not looked at.  A strict
record refuses keys it does not know; any other skips them, if only their numbers can be read.
-/

namespace HeatingPlant

open Toml

/-- How a document holds the values of a type. -/
structure Codec (α : Type) where
  /-- The value that a document's value denotes. -/
  read : Value → Option α
  /-- The document's value; `none` for a value that is left out. -/
  write : α → Option Scalar

namespace Codec

/-- A text. -/
def text : Codec String where
  read
    | .scalar (.string text) => some text
    | _ => none
  write text := some (.string text)

/-- A whole number up to `largest`. -/
def natural (largest : Nat) : Codec Nat where
  read
    | .scalar (.integer value) =>
      if 0 ≤ value ∧ value ≤ largest then some value.toNat else none
    | _ => none
  write value := some (.integer value)

/-- A codec for a type that another type's values stand for. -/
def map {α β : Type} (codec : Codec α) (into : α → Option β)
    (back : β → α) : Codec β where
  read value := (codec.read value).bind into
  write value := codec.write (back value)

/-- A whole number of eight bits. -/
def byte : Codec UInt8 := (natural 255).map (some ∘ UInt8.ofNat) UInt8.toNat

/-- A whole number of 32 bits. -/
def word32 : Codec UInt32 := (natural 4294967295).map (some ∘ UInt32.ofNat) UInt32.toNat

/-- A whole number of 64 bits. -/
def word64 : Codec UInt64 :=
  (natural 18446744073709551615).map (some ∘ UInt64.ofNat) UInt64.toNat

/-- A quantity; whole numbers of 64 bits, signed or not, are quantities too. -/
def quantity : Codec Float where
  read
    | .scalar (.real value) => value.toFloat?
    | .scalar (.integer value) =>
      if -9223372036854775808 ≤ value ∧ value ≤ 18446744073709551615 then
        some (Float.ofInt value)
      else none
    | _ => none
  write value := some (.real (.ofFloat value))

/-- A name: its text, or a table or array of nothing under it. -/
def keyword : Codec String where
  read
    | .scalar (.string name) => some name
    | .table _ [(name, .table _ [])] | .table _ [(name, .array [])] => some name
    | _ => none
  write name := some (.string name)

/-- The urgency of notices. -/
def level : Codec Level := keyword.map Level.ofKeyword? Level.keyword

/-- Who commands the valve. -/
def mode : Codec ControlMode := keyword.map ControlMode.ofKeyword? ControlMode.keyword

/-- A network address and port. -/
def endpoint : Codec Endpoint := text.map Endpoint.ofText? Endpoint.text

/-- A value that may be left out. -/
def optional {α : Type} (codec : Codec α) : Codec (Option α) where
  read value := (codec.read value).map some
  write value := value.bind codec.write

end Codec

/-- A named part of a record. -/
structure Field (α : Type) where
  /-- Its name. -/
  key : String
  /-- The record with this part as a document gives it. -/
  read : Value → α → Option α
  /-- The document's value for this part. -/
  write : α → Option Scalar

/-- A part of a record that a codec reads and writes. -/
def Field.of {α β : Type} (key : String) (codec : Codec β) (get : α → β)
    (put : β → α → α) :
    Field α where
  key := key
  read value record := (codec.read value).map fun part => put part record
  write record := codec.write (get record)

namespace Toml

mutual

/-- Whether a value could be read as something: its whole numbers fit 128 bits, signed or not, and
its real numbers are not too large. -/
def Value.isReadable : Value → Bool
  | .scalar (.integer value) => -(2 ^ 127) ≤ value && value < 2 ^ 128
  | .scalar (.real value) => value.toFloat?.isSome
  | .scalar (.illegible _) => false
  | .scalar _ => true
  | .array elements => areReadable elements
  | .tables elements => areReadable elements
  | .table _ entries => entriesReadable entries

/-- Whether all values of a list could be read. -/
def areReadable : List Value → Bool
  | [] => true
  | value :: rest => value.isReadable && areReadable rest

/-- Whether all values of a table could be read. -/
def entriesReadable : List (String × Value) → Bool
  | [] => true
  | (_, value) :: rest => value.isReadable && entriesReadable rest

end

end Toml

/-- One key of a document and its value read into a record. -/
def readEntry {α : Type} (fields : List (Field α)) (strict : Bool) (record : α)
    (entry : String × Value) : Option α :=
  match fields.find? (fun field => field.key = entry.1) with
  | some field => field.read entry.2 record
  | none => if strict then none else if entry.2.isReadable then some record else none

/-- The keys of a table read into a record. -/
def readEntries {α : Type} (fields : List (Field α)) (strict : Bool) (record : α)
    (entries : Entries) : Option α :=
  entries.foldlM (readEntry fields strict) record

/-- The elements of an array read into a record, field by field. -/
def readElements {α : Type} : List (Field α) → α → List Value → Option α
  | field :: fields, record, value :: values =>
    (field.read value record).bind fun record => readElements fields record values
  | _, record, _ => some record

/-- A record from a document's value; a date is a table with one key that no record knows. -/
def readRecord {α : Type} (fields : List (Field α)) (strict : Bool) (defaults : α) :
    Value → Option α
  | .table _ entries => readEntries fields strict defaults entries
  | .array elements | .tables elements => readElements fields defaults elements
  | .scalar (.datetime _) => if strict then none else some defaults
  | .scalar _ => none

/-- The lines of a record. -/
def writeRecord {α : Type} (fields : List (Field α)) (record : α) : List (String × Scalar) :=
  fields.filterMap fun field => (field.write record).map fun value => (field.key, value)

end HeatingPlant
