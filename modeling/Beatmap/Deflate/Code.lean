import Beatmap.Deflate.Stream

/-!
# Canonical prefix codes

A prefix code assigns bit strings to symbols such that none is a prefix of another. A canonical code
is determined by the lengths of the code words: shorter words come first, and words of one length
are ordered by their symbols. `Code.read` decodes a word by its index among the words of its length,
trying one length after another.
-/

namespace Beatmap.Deflate

/-- A prefix code. -/
structure Code where
  /-- The number of code words of length 1, 2, and so on. -/
  counts : List Nat
  /-- The symbols in the order of their code words. -/
  symbols : Array Nat
  deriving DecidableEq, Repr

namespace Code

/-- The greatest length, at least one. -/
def longest (lengths : List Nat) : Nat := lengths.foldl max 1

/-- The numbers from 1 to the greatest length. -/
def wordLengths (lengths : List Nat) : List Nat := (List.range (longest lengths)).map (· + 1)

/-- The symbols with code words of length `n`. -/
def symbolsOfLength (lengths : List Nat) (n : Nat) : List Nat :=
  lengths.zipIdx.filterMap fun (length, symbol) => if length = n then some symbol else none

/-- The code in which symbol `i` has a word of the `i`-th length, or no word if that length is zero.
-/
def ofLengths (lengths : List Nat) : Code where
  counts := (wordLengths lengths).map lengths.count
  symbols := ((wordLengths lengths).flatMap (symbolsOfLength lengths)).toArray

/-- The number of unused words of the greatest length; `none` if the lengths are oversubscribed. -/
def vacant? (counts : List Nat) : Option Nat :=
  counts.foldlM (fun free count => if count ≤ 2 * free then some (2 * free - count) else none) 1

/-- Whether every bit string starts with a code word. -/
def isComplete (lengths : List Nat) : Bool := vacant? (ofLengths lengths).counts == some 0

/-- Whether the only code word is a single bit. -/
def isLone (lengths : List Nat) : Bool :=
  longest lengths == 1 && (vacant? (ofLengths lengths).counts).isSome

/-- Whether no symbol has a code word. -/
def isEmpty (lengths : List Nat) : Bool := lengths.all (· == 0)

/-- Decodes a word, where `offset` is the distance of the bits read so far from the first word of
the current length, and `index` is the number of shorter words. -/
def readFrom (code : Code) (offset index : Nat) : (counts : List Nat) → Inflating Nat
  | [] => throw .corrupt
  | count :: longer => do
    let offset := 2 * offset + (← Inflating.bit)
    if offset < count then return code.symbols.getD (index + offset) 0
    else readFrom code (offset - count) (index + count) longer

/-- Decodes a word to its symbol. -/
def read (code : Code) : Inflating Nat := readFrom code 0 0 code.counts

end Code

end Beatmap.Deflate
