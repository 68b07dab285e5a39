/-!
# Hexadecimal text

Words as lower-case hexadecimal digits of fixed length: eight for each 32-bit word
(`length_ofWords`).
-/

namespace Beatmap.Text.Hex

/-- A hexadecimal digit in lower case. -/
def digit (n : Nat) : Char := if n < 10 then Char.ofNat (48 + n) else Char.ofNat (87 + n)

/-- The two digits of a byte. -/
def ofByte (b : UInt8) : List Char := [digit (b.toNat / 16), digit (b.toNat % 16)]

/-- The four bytes of a word in little-endian order. -/
def bytesOf (w : UInt32) : List UInt8 :=
  [w.toUInt8, (w >>> 8).toUInt8, (w >>> 16).toUInt8, (w >>> 24).toUInt8]

/-- The digits of the bytes of some words. -/
def ofWords (words : List UInt32) : List Char := (words.flatMap bytesOf).flatMap ofByte

theorem length_ofWords (words : List UInt32) : (ofWords words).length = 8 * words.length := by
  induction words with
  | nil => rfl
  | cons w ws ih =>
    simp only [ofWords, List.flatMap_cons, List.flatMap_append, List.length_append] at ih ⊢
    rw [ih]
    simp only [bytesOf, ofByte, List.flatMap_cons, List.flatMap_nil, List.length_append,
      List.length_nil, List.length_cons]
    omega

/-- Every digit of a byte is a hexadecimal digit. -/
theorem digit_mem {n : Nat} (h : n < 16) : digit n ∈ "0123456789abcdef".toList := by
  have : ∀ n : Fin 16, digit n ∈ "0123456789abcdef".toList := by decide
  exact this ⟨n, h⟩

theorem mem_ofByte {b : UInt8} {c : Char} (h : c ∈ ofByte b) :
    c ∈ "0123456789abcdef".toList := by
  have hb := b.toNat_lt
  simp only [ofByte, List.mem_cons, List.not_mem_nil, or_false] at h
  rcases h with rfl | rfl
  · exact digit_mem (by omega)
  · exact digit_mem (Nat.mod_lt _ (by decide))

theorem mem_ofWords {words : List UInt32} {c : Char} (h : c ∈ ofWords words) :
    c ∈ "0123456789abcdef".toList := by
  rw [ofWords, List.mem_flatMap] at h
  obtain ⟨b, -, hc⟩ := h
  exact mem_ofByte hc

end Beatmap.Text.Hex
