import Beatmap.Json.Basic
import Beatmap.Text.Pieces

/-!
# Printing JSON

`Value.printAt` prints a value in a `Style`, which determines the white space between the parts;
`Value.pretty` uses one line per item and two spaces per level. Strings escape only what must be
escaped: quotes, backslashes, and control characters below U+0020.
-/

namespace Beatmap.Json

/-- A hexadecimal digit in lower case. -/
def hexDigit (n : Nat) : Char := Nat.digitChar n

/-- The representation of a character inside a string. -/
def escape (c : Char) : List Char :=
  if c = '"' then ['\\', '"']
  else if c = '\\' then ['\\', '\\']
  else if c = '\x08' then ['\\', 'b']
  else if c = '\x0c' then ['\\', 'f']
  else if c = '\n' then ['\\', 'n']
  else if c = '\r' then ['\\', 'r']
  else if c = '\t' then ['\\', 't']
  else if c.toNat < 0x20 then
    ['\\', 'u', '0', '0', hexDigit (c.toNat / 16), hexDigit (c.toNat % 16)]
  else [c]

/-- A string with its quotes. A string with an unpaired surrogate is printed as a surrogate escape.
-/
def printString : Content → List Char
  | some s => '"' :: s.toList.flatMap escape ++ ['"']
  | none => "\"\\ud800\"".toList

/-- An exponent with its sign. -/
def printExponent (n : Int) : List Char :=
  'e' :: (if n < 0 then '-' else '+') :: Value.digitsOf n.natAbs

/-- The fraction of a number, with its point; empty if there are no digits. -/
def printFraction (digits : List Char) : List Char := if digits.isEmpty then [] else '.' :: digits

/-- The text of a number literal. -/
def Literal.print (l : Literal) : List Char :=
  (if l.negative then ['-'] else []) ++ l.whole ++ printFraction l.fraction
    ++ l.exponent.elim [] printExponent

/-- The text of a value that is neither an array nor an object. -/
def printAtom : Value → List Char
  | .null => "null".toList
  | .bool true => "true".toList
  | .bool false => "false".toList
  | .number l => l.print
  | .string s => printString s
  | .array _ => "[]".toList
  | .object _ => ['\x7b', '\x7d']

/-- The white space between the parts of a value: before an item at a given nesting level, and after
a colon. -/
structure Style where
  line : Nat → List Char
  gap : List Char
  isBlank_of_mem_line : ∀ level, ∀ c ∈ line level, isBlank c = true
  isBlank_of_mem_gap : ∀ c ∈ gap, isBlank c = true

/-- No white space. -/
def Style.tight : Style where
  line _ := []
  gap := []
  isBlank_of_mem_line := by simp
  isBlank_of_mem_gap := by simp

/-- A line break and the indentation of a level. -/
def newLine (level : Nat) : List Char := '\n' :: List.replicate (2 * level) ' '

/-- One line per item. -/
def Style.lined : Style where
  line := newLine
  gap := [' ']
  isBlank_of_mem_line level c hc := by
    rcases List.mem_cons.mp hc with rfl | hc
    · decide
    · rw [List.eq_of_mem_replicate hc]
      decide
  isBlank_of_mem_gap c hc := by
    rw [List.mem_singleton.mp hc]
    decide

mutual

/-- Prints a value at nesting level `level`. -/
def Value.printAt (style : Style) (level : Nat) : Value → List Char
  | .array (v :: vs) =>
    '[' :: style.line (level + 1) ++ v.printAt style (level + 1) ++ printItems style level vs
  | .object (f :: fs) =>
    '\x7b' :: style.line (level + 1) ++ printString f.1 ++ ':' :: style.gap
      ++ f.2.printAt style (level + 1) ++ printFields style level fs
  | v => printAtom v

/-- Prints the remaining items of an array and the closing bracket. -/
def printItems (style : Style) (level : Nat) : List Value → List Char
  | [] => style.line level ++ [']']
  | v :: vs =>
    ',' :: style.line (level + 1) ++ v.printAt style (level + 1) ++ printItems style level vs

/-- Prints the remaining fields of an object and the closing brace. -/
def printFields (style : Style) (level : Nat) : List (Content × Value) → List Char
  | [] => style.line level ++ ['\x7d']
  | f :: fs =>
    ',' :: style.line (level + 1) ++ printString f.1 ++ ':' :: style.gap
      ++ f.2.printAt style (level + 1) ++ printFields style level fs

end

/-- Prints a value at the top level. -/
def Value.print (style : Style) (v : Value) : List Char := v.printAt style 0

/-- Prints a value with one line per item. -/
def Value.pretty (v : Value) : List Char := v.print .lined

end Beatmap.Json
