import Beatmap.Bytes

/-!
# Bit streams

The state of decompression (`Stream`) consists of the input, the number of bits consumed, and the
output so far. A step fails with a `Halt`, which distinguishes the end of the input from invalid
data.
-/

namespace Beatmap.Deflate

/-- Why decompression fails. -/
inductive Halt where
  /-- The input ends early. -/
  | exhausted
  /-- The input is invalid. -/
  | corrupt
  deriving DecidableEq, Repr

/-- The state of a decompression. -/
structure Stream where
  input : ByteArray
  /-- The number of bits consumed. -/
  position : Nat := 0
  output : ByteArray := .empty

/-- Decompression steps. -/
abbrev Inflating := EStateM Halt Stream

namespace Inflating

/-- The next bit. The bits of a byte are consumed from the lowest to the highest. -/
def bit : Inflating Nat := do
  let s ← get
  if s.position < 8 * s.input.size then
    let b := ((Bytes.byteAt s.input (s.position / 8)).toNat >>> (s.position % 8)) % 2
    set { s with position := s.position + 1 }
    return b
  else throw .exhausted

/-- The number given by the next `n` bits, lowest bit first. -/
def bits : (n : Nat) → Inflating Nat
  | 0 => return 0
  | n + 1 => do
    let low ← bit
    let high ← bits n
    return low + 2 * high

/-- Skips to the next byte boundary. -/
def align : Inflating Unit := modify fun s => { s with position := (s.position + 7) / 8 * 8 }

/-- Appends a byte to the output. -/
def emit (b : UInt8) : Inflating Unit := modify fun s => { s with output := s.output.push b }

/-- Copies `n` bytes of the input to the output. -/
def emitInput : (n : Nat) → Inflating Unit
  | 0 => return
  | n + 1 => do
    emit (← bits 8).toUInt8
    emitInput n

/-- Copies `n` bytes of the output, starting `distance` bytes back. The copied range may overlap the
new output. -/
def emitOutput (distance : Nat) : (n : Nat) → Inflating Unit
  | 0 => return
  | n + 1 => do
    let s ← get
    emit (Bytes.byteAt s.output (s.output.size - distance))
    emitOutput distance n

end Inflating

end Beatmap.Deflate
