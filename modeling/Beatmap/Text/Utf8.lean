/-!
# UTF-8 decoding

Lossy decoding of UTF-8: every maximal subpart of an ill-formed sequence is replaced by one
replacement character. The decoder is an automaton over bytes whose state is the output so far and
the character that has begun (`Begun`), if any.

A byte below `0x80` ends an ill-formed sequence and is decoded as itself. The lines of a text are
therefore decoded independently of each other (`decode_append_newline`).
-/

namespace Beatmap.Text.Utf8

/-- The replacement character U+FFFD. -/
def replacement : Char := '\ufffd'

/-- The state within a multi-byte character. -/
structure Begun where
  /-- The bits of the character so far. -/
  value : Nat
  /-- The least admissible next byte. -/
  low : UInt8 := 0x80
  /-- The greatest admissible next byte. -/
  high : UInt8 := 0xBF
  /-- The number of bytes after the next one. -/
  more : Nat
  deriving DecidableEq, Repr

/-- The state after the first byte of a character. The bounds on the second byte exclude overlong
forms, surrogates, and values above U+10FFFF. -/
def beginning? (b : UInt8) : Option Begun :=
  let bits := b.toNat
  if 0xC2 ≤ b ∧ b ≤ 0xDF then some { value := bits - 0xC0, more := 0 }
  else if b = 0xE0 then some { value := 0, low := 0xA0, more := 1 }
  else if b = 0xED then some { value := 0xD, high := 0x9F, more := 1 }
  else if 0xE1 ≤ b ∧ b ≤ 0xEF then some { value := bits - 0xE0, more := 1 }
  else if b = 0xF0 then some { value := 0, low := 0x90, more := 2 }
  else if 0xF1 ≤ b ∧ b ≤ 0xF3 then some { value := bits - 0xF0, more := 2 }
  else if b = 0xF4 then some { value := 4, high := 0x8F, more := 2 }
  else none

/-- The state of the decoder. -/
structure Decoding where
  /-- The decoded characters in reverse order. -/
  output : List Char := []
  begun : Option Begun := none
  deriving DecidableEq, Repr

namespace Decoding

/-- Replaces an incomplete character. -/
def interrupt (d : Decoding) : Decoding :=
  match d.begun with
  | none => d
  | some _ => ⟨replacement :: d.output, none⟩

/-- Processes a byte at the start of a character. -/
def start (output : List Char) (b : UInt8) : Decoding :=
  if b < 0x80 then ⟨Char.ofNat b.toNat :: output, none⟩
  else match beginning? b with
    | some begun => ⟨output, some begun⟩
    | none => ⟨replacement :: output, none⟩

/-- Processes a byte. -/
def take (d : Decoding) (b : UInt8) : Decoding :=
  match d.begun with
  | none => start d.output b
  | some begun =>
    if begun.low ≤ b ∧ b ≤ begun.high then
      let value := 64 * begun.value + (b.toNat - 0x80)
      match begun.more with
      | 0 => ⟨Char.ofNat value :: d.output, none⟩
      | more + 1 => ⟨d.output, some { value, more }⟩
    else start d.interrupt.output b

/-- The decoded text at the end of the input. -/
def text (d : Decoding) : List Char := d.interrupt.output.reverse

end Decoding

/-- Decodes a list of bytes. -/
def decode (bytes : List UInt8) : List Char := (bytes.foldl Decoding.take {}).text

namespace Decoding

/-- The state with earlier output in front of its own. -/
def after (d : Decoding) (earlier : List Char) : Decoding := ⟨d.output ++ earlier, d.begun⟩

theorem interrupt_after (d : Decoding) (earlier : List Char) :
    (d.after earlier).interrupt = d.interrupt.after earlier := by
  obtain ⟨output, begun⟩ := d
  cases begun <;> rfl

theorem start_append (output earlier : List Char) (b : UInt8) :
    start (output ++ earlier) b = (start output b).after earlier := by
  unfold start after
  split
  · rfl
  · cases beginning? b <;> rfl

/-- Decoding does not depend on earlier output. -/
theorem take_after (d : Decoding) (earlier : List Char) (b : UInt8) :
    (d.after earlier).take b = (d.take b).after earlier := by
  unfold take
  rw [interrupt_after]
  show (match d.begun with | none => _ | some begun => _) = _
  cases d.begun with
  | none => exact start_append _ _ _
  | some begun =>
    dsimp only
    split
    · cases begun.more <;> rfl
    · exact start_append _ _ _

theorem foldl_take_after (bytes : List UInt8) (d : Decoding) (earlier : List Char) :
    bytes.foldl take (d.after earlier) = (bytes.foldl take d).after earlier := by
  induction bytes generalizing d with
  | nil => rfl
  | cons b rest ih => rw [List.foldl_cons, List.foldl_cons, take_after, ih]

/-- Every admissible continuation byte is at least `0x80`. -/
def Sound (d : Decoding) : Prop := ∀ begun ∈ d.begun, 0x80 ≤ begun.low

theorem le_low_of_beginning? {b : UInt8} {begun : Begun} (h : beginning? b = some begun) :
    0x80 ≤ begun.low := by
  unfold beginning? at h
  grind

theorem start_sound (output : List Char) (b : UInt8) : (start output b).Sound := by
  intro begun h
  unfold start at h
  split at h
  · simp at h
  · split at h
    · next hb =>
      simp only [Option.mem_def, Option.some.injEq] at h
      exact le_low_of_beginning? (h ▸ hb)
    · simp at h

theorem take_sound (d : Decoding) (b : UInt8) : (d.take b).Sound := by
  unfold take
  split
  · exact start_sound _ _
  · split
    · dsimp only
      split
      · intro begun h; simp at h
      · intro begun h
        simp only [Option.mem_def, Option.some.injEq] at h
        subst h
        exact UInt8.le_refl _
    · exact start_sound _ _

theorem foldl_take_sound (bytes : List UInt8) {d : Decoding} (h : d.Sound) :
    (bytes.foldl take d).Sound := by
  induction bytes generalizing d with
  | nil => exact h
  | cons b rest ih => exact ih (take_sound d b)

/-- A newline ends an incomplete character. -/
theorem take_newline {d : Decoding} (h : d.Sound) :
    d.take 0x0A = ⟨'\n' :: d.interrupt.output, none⟩ := by
  unfold take
  split
  · next hb => simp [start, interrupt, hb]
  · next begun hb =>
    have := h begun (by simp [hb])
    rw [if_neg]
    · rfl
    · intro hl
      exact absurd (UInt8.le_trans this hl.1) (by decide)

end Decoding

/-- A line is decoded independently of the lines after it. -/
theorem decode_append_newline (line rest : List UInt8) :
    decode (line ++ 0x0A :: rest) = decode line ++ '\n' :: decode rest := by
  have hs : (line.foldl Decoding.take {}).Sound :=
    Decoding.foldl_take_sound line (fun _ h => by simp at h)
  have hf := Decoding.foldl_take_after rest {}
    ('\n' :: (line.foldl Decoding.take {}).interrupt.output)
  rw [Decoding.after, List.nil_append] at hf
  unfold decode
  rw [List.foldl_append, List.foldl_cons, Decoding.take_newline hs, hf, Decoding.text,
    Decoding.interrupt_after]
  simp [Decoding.after, Decoding.text]

end Beatmap.Text.Utf8
