import Beatmap.Deflate.Code

/-!
# Inflate

Decompression of the deflate format. The input is a sequence of blocks. A block is stored verbatim,
or it is a sequence of code words for literal bytes and for copies of earlier output. The prefix
codes of a block are either fixed or described at its start.

`inflate` returns the whole output, or the reason why decompression fails before the end of the last
block (`Halt`). Input after the last block is ignored.
-/

namespace Beatmap.Deflate

open Inflating

/-- The symbol that ends a block. -/
def endOfBlock : Nat := 256

/-- Ranges of numbers, each given by its least number and its number of extra bits. -/
abbrev Spans := List (Nat × Nat)

/-- The copy lengths, from symbol 257 on. -/
def lengthSpans : Spans :=
  [(3, 0), (4, 0), (5, 0), (6, 0), (7, 0), (8, 0), (9, 0), (10, 0), (11, 1), (13, 1), (15, 1),
    (17, 1), (19, 2), (23, 2), (27, 2), (31, 2), (35, 3), (43, 3), (51, 3), (59, 3), (67, 4),
    (83, 4), (99, 4), (115, 4), (131, 5), (163, 5), (195, 5), (227, 5), (258, 0)]

/-- The copy distances. -/
def distanceSpans : Spans :=
  [(1, 0), (2, 0), (3, 0), (4, 0), (5, 1), (7, 1), (9, 2), (13, 2), (17, 3), (25, 3), (33, 4),
    (49, 4), (65, 5), (97, 5), (129, 6), (193, 6), (257, 7), (385, 7), (513, 8), (769, 8),
    (1025, 9), (1537, 9), (2049, 10), (3073, 10), (4097, 11), (6145, 11), (8193, 12), (12289, 12),
    (16385, 13), (24577, 13)]

/-- Reads a number in range `i`. -/
def readSpan (spans : Spans) (i : Nat) : Inflating Nat :=
  match spans[i]? with
  | none => throw .corrupt
  | some (least, extra) => return least + (← bits extra)

/-- Copies earlier output. -/
def repeatOutput (distance length : Nat) : Inflating Unit := do
  if (← get).output.size < distance then throw .corrupt
  emitOutput distance length

/-- Decodes words up to the end of the block. Every word consumes at least one bit, so the number of
input bits is enough `fuel`. -/
def readWords (literals distances : Code) : (fuel : Nat) → Inflating Unit
  | 0 => throw .corrupt
  | fuel + 1 => do
    let symbol ← literals.read
    if symbol < endOfBlock then
      emit symbol.toUInt8
      readWords literals distances fuel
    else if symbol = endOfBlock then return
    else
      let length ← readSpan lengthSpans (symbol - 257)
      let distance ← readSpan distanceSpans (← distances.read)
      repeatOutput distance length
      readWords literals distances fuel

/-- Reads a stored block. Its length is stated twice. -/
def readStored : Inflating Unit := do
  align
  let length ← bits 16
  let complement ← bits 16
  if length + complement ≠ 0xFFFF then throw .corrupt
  emitInput length

/-- The code lengths of the fixed code for literals and copy lengths. -/
def standingLiterals : List Nat :=
  List.replicate 144 8 ++ List.replicate 112 9 ++ List.replicate 24 7 ++ List.replicate 8 8

/-- The code lengths of the fixed code for distances. -/
def standingDistances : List Nat := List.replicate 32 5

/-- The order in which the code lengths of the length code are given. -/
def descriptionOrder : List Nat :=
  [16, 17, 18, 0, 8, 7, 9, 6, 10, 5, 11, 4, 12, 3, 13, 2, 14, 1, 15]

/-- Reads `n` numbers of three bits. -/
def readTriples : (n : Nat) → Inflating (List Nat)
  | 0 => return []
  | n + 1 => do
    let first ← bits 3
    return first :: (← readTriples n)

/-- Reads code lengths until there are `total`; some symbols repeat a length. Every symbol adds at
least one length, so `total` is enough `fuel`. -/
def readLengths (code : Code) (total : Nat) : (fuel : Nat) → (lengths : Array Nat) →
    Inflating (Array Nat)
  | 0, lengths => return lengths
  | fuel + 1, lengths => do
    if total ≤ lengths.size then return lengths
    let symbol ← code.read
    if symbol < 16 then readLengths code total fuel (lengths.push symbol)
    else
      let (value, count) ←
        if symbol = 16 then
          let count ← bits 2
          match lengths.back? with
          | some value => pure (value, 3 + count)
          | none => throw .corrupt
        else if symbol = 17 then pure (0, 3 + (← bits 3))
        else pure (0, 11 + (← bits 7))
      if total < lengths.size + count then throw .corrupt
      readLengths code total fuel (lengths ++ Array.replicate count value)

/-- The length code. If it has no words at all, every bit is an invalid word. -/
def codeOfDescriptions (descriptions : List Nat) : Code :=
  if Code.isEmpty descriptions then { counts := [2], symbols := #[0, 0] }
  else Code.ofLengths descriptions

/-- Reads the code descriptions of a block. The end-of-block symbol must have a word. A code must be
complete or have a single word of one bit; the distance code may also be empty. -/
def readCodes : Inflating (Code × Code) := do
  let literalCount := 257 + (← bits 5)
  let distanceCount := 1 + (← bits 5)
  let describedCount := 4 + (← bits 4)
  if 286 < literalCount ∨ 30 < distanceCount then throw .corrupt
  let described := descriptionOrder.zip (← readTriples describedCount)
  let descriptions := (List.range 19).map fun symbol => (described.lookup symbol).getD 0
  unless Code.isComplete descriptions || Code.isEmpty descriptions do throw .corrupt
  let total := literalCount + distanceCount
  let lengths := (← readLengths (codeOfDescriptions descriptions) total total #[]).toList
  let literals := lengths.take literalCount
  let distances := lengths.drop literalCount
  if literals.getD endOfBlock 0 = 0 then throw .corrupt
  unless Code.isComplete literals || Code.isLone literals do throw .corrupt
  unless Code.isComplete distances || Code.isLone distances || Code.isEmpty distances do
    throw .corrupt
  return (Code.ofLengths literals, Code.ofLengths distances)

/-- Reads a compressed block. -/
def readCoded (literals distances : Code) : Inflating Unit := do
  readWords literals distances (8 * (← get).input.size + 1)

/-- Reads all blocks. Every block consumes bits, so the number of input bits is enough `fuel`. -/
def readBlocks : (fuel : Nat) → Inflating Unit
  | 0 => throw .corrupt
  | fuel + 1 => do
    let last ← bit
    match ← bits 2 with
    | 0 => readStored
    | 1 => readCoded (Code.ofLengths standingLiterals) (Code.ofLengths standingDistances)
    | 2 => do
      let (literals, distances) ← readCodes
      readCoded literals distances
    | _ => throw .corrupt
    if last = 1 then return else readBlocks fuel

/-- Decompresses a byte string. -/
def inflate (input : ByteArray) : Except Halt ByteArray :=
  match readBlocks (8 * input.size + 1) { input } with
  | .ok _ s => .ok s.output
  | .error halt _ => .error halt

end Beatmap.Deflate
