import Beatmap.Chart.Fault
import Beatmap.Number.Decimal
import Beatmap.Text.Pieces

/-!
# Key-value settings

Four sections of a chart file consist of lines `Key: Value`. Each is described by a table of
`Setting`s: a key, a parser for its value, and the field that stores it. Keys that are not in the
table are skipped.

`readSetting` depends only on the line and the table and returns an update of the section's fields.
That a later line overrides an earlier one, and that a value which cannot be parsed leaves the field
unchanged, both follow from composing these updates.
-/

namespace Beatmap

open Beatmap.Text Beatmap.Number

/-- The result of parsing a value. -/
inductive Content (α : Type) where
  /-- A parsed value. -/
  | value (a : α)
  /-- An empty value, which leaves the field unchanged without a fault. -/
  | blank
  /-- A value that cannot be parsed. -/
  | unreadable (fault : Fault)
  deriving DecidableEq

/-- A key of a section with fields `σ`. -/
structure Setting (σ : Type) where
  key : String
  /-- The type of the field. -/
  Value : Type
  /-- Parses the trimmed text after the colon. -/
  read : List Char → Content Value
  /-- Reads the field. -/
  get : σ → Value
  /-- Updates the field. -/
  set : Value → σ → σ

namespace Setting

variable {σ : Type}

/-- A key with a text value. -/
def text (key : String) (get : σ → String) (set : String → σ → σ) : Setting σ where
  key := key
  Value := String
  read value := .value (String.ofList value)
  get := get
  set := set

/-- A key with a Boolean value, true exactly for `1`. -/
def flag (key : String) (get : σ → Bool) (set : Bool → σ → σ) : Setting σ where
  key := key
  Value := Bool
  read value := .value (value == ['1'])
  get := get
  set := set

/-- A key whose value is parsed by `parse`. -/
def parsed {α : Type} (parse : List Char → Option α) (key : String) (get : σ → α)
    (set : α → σ → σ) : Setting σ where
  key := key
  Value := α
  read value :=
    match parse value with
    | some a => .value a
    | none => .unreadable (.unreadableValue key (String.ofList value))
  get := get
  set := set

/-- A key with a 32-bit integer value. -/
def integer (key : String) (get : σ → Int32) (set : Int32 → σ → σ) : Setting σ :=
  parsed readInt32 key get set

/-- A key with a 32-bit floating-point value. -/
def single (key : String) (get : σ → Single) (set : Single → σ → σ) : Setting σ :=
  parsed (readFloating .single) key get set

/-- A key with a 64-bit floating-point value. -/
def double (key : String) (get : σ → Double) (set : Double → σ → σ) : Setting σ :=
  parsed (readFloating .double) key get set

/-- A key with a comma-separated list of integers. One malformed item makes the whole list
unreadable, and an empty value leaves the field unchanged. -/
def bookmarks (key : String) (get : σ → List Int32) (set : List Int32 → σ → σ) : Setting σ where
  key := key
  Value := List Int32
  read value :=
    if value.isEmpty then .blank
    else match (pieces ',' value).mapM (readInt32 <| trim ·) with
      | some list => .value list
      | none => .unreadable (.unreadableBookmarks (String.ofList value))
  get := get
  set := set

/-- The update of the fields by a value. -/
def assign (s : Setting σ) (value : List Char) : Reading (σ → σ) :=
  match s.read value with
  | .value a => .accepted (s.set a)
  | .blank => .silent
  | .unreadable fault => .refused fault

end Setting

/-- The trimmed texts before and after the first colon. -/
def keyAndValue? (line : List Char) : Option (String × List Char) :=
  (cutFirst ':' line).map fun (key, value) => (String.ofList (trim key), trim value)

/-- Parses a line of a section with the given table. -/
def readSetting {σ : Type} (table : List (Setting σ)) (line : List Char) : Reading (σ → σ) :=
  match keyAndValue? line with
  | none => .refused (.missingSeparator (String.ofList line))
  | some (key, value) =>
    match table.find? (·.key == key) with
    | none => .silent
    | some s => s.assign value

/-- Applies the update of a line to the fields. -/
def Reading.applyTo {σ : Type} (r : Reading (σ → σ)) (fields : σ) : σ :=
  match r.value with
  | some change => change fields
  | none => fields

end Beatmap
