import Beatmap.Json.Basic

/-!
# Parsing JSON

`parse` parses a text that consists of one value and surrounding white space. Each of the other
functions parses a value or a part of a value at the front of the text and returns the rest.

`readValue`, `readItems` and `readFields` are mutually recursive with a fuel argument. Of any two
consecutive calls at least one consumes a character, so twice the length of the text plus two is
enough.
-/

namespace Beatmap.Json

open Beatmap.Number

/-- Drops white space at the front. -/
def skipBlanks (text : List Char) : List Char := text.dropWhile isBlank

/-- The value of a hexadecimal digit, in upper or lower case. -/
def hexValue? (c : Char) : Option Nat :=
  if '0' ≤ c ∧ c ≤ '9' then some (c.toNat - '0'.toNat)
  else if 'a' ≤ c ∧ c ≤ 'f' then some (c.toNat - 'a'.toNat + 10)
  else if 'A' ≤ c ∧ c ≤ 'F' then some (c.toNat - 'A'.toNat + 10)
  else none

/-- Whether a code unit is a high surrogate. -/
def isHighHalf (n : Nat) : Bool := 0xD800 ≤ n && n ≤ 0xDBFF

/-- Whether a code unit is a low surrogate. -/
def isLowHalf (n : Nat) : Bool := 0xDC00 ≤ n && n ≤ 0xDFFF

/-- The character of a surrogate pair. -/
def joinHalves (high low : Nat) : Char :=
  Char.ofNat (0x10000 + (high - 0xD800) * 0x400 + (low - 0xDC00))

/-- The character of a single-letter escape. -/
def unescape? : Char → Option Char
  | '"' => some '"'
  | '\\' => some '\\'
  | '/' => some '/'
  | 'b' => some '\x08'
  | 'f' => some '\x0c'
  | 'n' => some '\n'
  | 'r' => some '\r'
  | 't' => some '\t'
  | _ => none

/-- The state of the string parser. -/
inductive StringPosition where
  | plain
  /-- After a backslash. -/
  | escaped
  /-- After `count` hexadecimal digits of a code unit with value `n`. -/
  | codeUnit (count n : Nat)
  deriving DecidableEq, Repr

/-- The part of a string that has been parsed. -/
structure StringRead where
  /-- The characters in reverse order; `none` after an unpaired surrogate. -/
  characters : Option (List Char) := some []
  /-- The high surrogate of the preceding escape, if it was one. -/
  half : Option Nat := none
  deriving DecidableEq, Repr

namespace StringRead

/-- Appends a character. A pending high surrogate becomes unpaired. -/
def push (s : StringRead) (c : Char) : StringRead where
  characters := if s.half.isNone then s.characters.map (c :: ·) else none

/-- Appends a code unit. -/
def pushUnit (s : StringRead) (n : Nat) : StringRead :=
  if isHighHalf n then
    { characters := if s.half.isNone then s.characters else none, half := some n }
  else if isLowHalf n then
    { characters := s.half.bind fun high => s.characters.map (joinHalves high n :: ·) }
  else s.push (Char.ofNat n)

/-- The parsed string. -/
def content (s : StringRead) : Content :=
  if s.half.isNone then s.characters.map fun cs => String.ofList cs.reverse else none

end StringRead

/-- Parses a string after its opening quote, up to and including the closing quote. -/
def readString (position : StringPosition) (s : StringRead) :
    List Char → Option (Content × List Char)
  | [] => none
  | c :: rest =>
    match position with
    | .plain =>
      if c = '"' then some (s.content, rest)
      else if c = '\\' then readString .escaped s rest
      else if c.toNat < 0x20 then none
      else readString .plain (s.push c) rest
    | .escaped =>
      if c = 'u' then readString (.codeUnit 0 0) s rest
      else match unescape? c with
        | some c => readString .plain (s.push c) rest
        | none => none
    | .codeUnit count n =>
      match hexValue? c with
      | none => none
      | some digit =>
        let n := 16 * n + digit
        if count = 3 then readString .plain (s.pushUnit n) rest
        else readString (.codeUnit (count + 1) n) s rest

/-- Splits off the digits at the front. -/
def takeDigits (text : List Char) : List Char × List Char :=
  (text.takeWhile isDigit, text.dropWhile isDigit)

/-- Parses the digits before the point: a single zero, or digits without a leading zero. -/
def readWhole (text : List Char) : Option (List Char × List Char) :=
  match takeDigits text with
  | ([], _) => none
  | ('0' :: _ :: _, _) => none
  | (digits, rest) => some (digits, rest)

/-- Parses an optional fraction. -/
def readFraction : List Char → Option (List Char × List Char)
  | '.' :: rest =>
    match takeDigits rest with
    | ([], _) => none
    | (digits, rest) => some (digits, rest)
  | rest => some ([], rest)

/-- Parses an optional exponent. -/
def readExponent : List Char → Option (Option Int × List Char)
  | [] => some (none, [])
  | c :: rest =>
    if c = 'e' ∨ c = 'E' then
      let (negative, rest) := readSign rest
      match takeDigits rest with
      | ([], _) => none
      | (digits, rest) =>
        let n := digitsValue digits
        some (some (if negative then -(n : Int) else (n : Int)), rest)
    else some (none, c :: rest)

/-- Parses a number. -/
def readLiteral (text : List Char) : Option (Literal × List Char) := do
  let (negative, rest) := match text with
    | '-' :: rest => (true, rest)
    | rest => (false, rest)
  let (whole, rest) ← readWhole rest
  let (fraction, rest) ← readFraction rest
  let (exponent, rest) ← readExponent rest
  return (⟨negative, whole, fraction, exponent⟩, rest)

mutual

/-- Parses a value. -/
def readValue : Nat → List Char → Option (Value × List Char)
  | 0, _ => none
  | bound + 1, text =>
    match skipBlanks text with
    | '\x7b' :: rest =>
      match skipBlanks rest with
      | '\x7d' :: rest => some (.object [], rest)
      | rest => (readFields bound rest).map fun (fields, rest) => (.object fields, rest)
    | '[' :: rest =>
      match skipBlanks rest with
      | ']' :: rest => some (.array [], rest)
      | rest => (readItems bound rest).map fun (items, rest) => (.array items, rest)
    | '"' :: rest => (readString .plain {} rest).map fun (content, rest) => (.string content, rest)
    | 'n' :: 'u' :: 'l' :: 'l' :: rest => some (.null, rest)
    | 't' :: 'r' :: 'u' :: 'e' :: rest => some (.bool true, rest)
    | 'f' :: 'a' :: 'l' :: 's' :: 'e' :: rest => some (.bool false, rest)
    | rest => (readLiteral rest).map fun (literal, rest) => (.number literal, rest)

/-- Parses the items of an array, at least one, and the closing bracket. -/
def readItems : Nat → List Char → Option (List Value × List Char)
  | 0, _ => none
  | bound + 1, text =>
    match readValue bound text with
    | none => none
    | some (v, rest) =>
      match skipBlanks rest with
      | ',' :: rest => (readItems bound rest).map fun (vs, rest) => (v :: vs, rest)
      | ']' :: rest => some ([v], rest)
      | _ => none

/-- Parses the fields of an object, at least one, and the closing brace. -/
def readFields : Nat → List Char → Option (List (Content × Value) × List Char)
  | 0, _ => none
  | bound + 1, text =>
    match skipBlanks text with
    | '"' :: rest =>
      match readString .plain {} rest with
      | none => none
      | some (name, rest) =>
        match skipBlanks rest with
        | ':' :: rest =>
          match readValue bound rest with
          | none => none
          | some (v, rest) =>
            match skipBlanks rest with
            | ',' :: rest => (readFields bound rest).map fun (fs, rest) => ((name, v) :: fs, rest)
            | '\x7d' :: rest => some ([(name, v)], rest)
            | _ => none
        | _ => none
    | _ => none

end

/-- Parses a text that consists of one value and surrounding white space. -/
def parse (text : List Char) : Option Value :=
  match readValue (2 * text.length + 2) text with
  | some (v, rest) => if (skipBlanks rest).isEmpty then some v else none
  | none => none

end Beatmap.Json
