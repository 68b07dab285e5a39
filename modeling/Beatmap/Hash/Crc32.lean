import Beatmap.Bytes

/-!
# CRC-32

The 32-bit cyclic redundancy check that zip archives use to detect damaged content, in its reflected
form: the lowest bit of each byte comes first.
-/

namespace Beatmap.Hash.Crc32

/-- The generator polynomial in reflected form, without its highest term. -/
def divisor : UInt32 := 0xEDB88320

/-- One step of the polynomial division. -/
def shiftOut (r : UInt32) : UInt32 := if r &&& 1 = 1 then (r >>> 1) ^^^ divisor else r >>> 1

/-- Updates the remainder by one byte. -/
def take (r : UInt32) (b : UInt8) : UInt32 := Nat.repeat shiftOut 8 (r ^^^ b.toUInt32)

/-- The checksum of a byte string. -/
def check (bytes : ByteArray) : UInt32 := (Bytes.toList bytes).foldl take 0xFFFFFFFF ^^^ 0xFFFFFFFF

end Beatmap.Hash.Crc32
