import Beatmap.Number.Power

/-!
# Byte strings

Access to bytes by position, with zero after the end, and little-endian numbers. Byte strings have
decidable equality through their arrays.
-/

attribute [instance (2000)] ByteArray.instDecidableEq

namespace Beatmap.Bytes

/-- The byte at a position, or zero after the end. -/
def byteAt (bytes : ByteArray) (i : Nat) : UInt8 := if h : i < bytes.size then bytes[i] else 0

/-- The little-endian number in the `count` bytes from position `i` on. -/
def numberAt (bytes : ByteArray) (i : Nat) : (count : Nat) → Nat
  | 0 => 0
  | count + 1 => (byteAt bytes i).toNat + 256 * numberAt bytes (i + 1) count

/-- The little-endian number of a list of bytes. -/
def numberOf : List UInt8 → Nat
  | [] => 0
  | b :: rest => b.toNat + 256 * numberOf rest

/-- Whether the little-endian number in the `count` bytes from position `i` on is `n`. -/
def isNumberAt (bytes : ByteArray) (i count n : Nat) : Bool :=
  i + count ≤ bytes.size && numberAt bytes i count == n

/-- The bytes from position `i` on, at most `count` of them. -/
def slice (bytes : ByteArray) (i count : Nat) : ByteArray := bytes.extract i (i + count)

/-- The bytes as a list. -/
def toList (bytes : ByteArray) : List UInt8 := bytes.data.toList

/-- The byte string of a list. -/
def ofList (bytes : List UInt8) : ByteArray := ⟨bytes.toArray⟩

end Beatmap.Bytes
