import Beatmap.Mapset.Processing
import Beatmap.Proofs.Lines

/-!
# Malformed bytes stay within their line

The bytes of a chart file need not be valid UTF-8; malformed sequences are replaced. Decoding the
whole content and splitting it into lines gives the same result as splitting the bytes into lines
and decoding each line (`pieces_decode`). A change of the bytes inside one line therefore preserves
the number and the text of all other lines (`ofMember_byteLines`).

This needs two facts. A newline byte ends an incomplete character (`decode_append_newline`). And no
other byte decodes to a newline: a multi-byte character lies outside of ASCII, which is already
determined by its first byte (`Begun.IsWide`).
-/

namespace Beatmap

namespace Text.Utf8

/-! ## Newlines are decoded from newline bytes only -/

/-- The character that has begun lies outside of ASCII, whatever bytes follow. After the next byte
its value is at least `64 * value + (low - 0x80)`, and each further byte multiplies it by 64. -/
def Begun.IsWide (begun : Begun) : Prop :=
  (if begun.more = 0 then 0x80 else 2) ≤ 64 * begun.value + (begun.low.toNat - 0x80)

theorem isWide_of_beginning? {b : UInt8} {begun : Begun} (h : beginning? b = some begun) :
    begun.IsWide := by
  unfold beginning? at h
  simp only [UInt8.le_iff_toNat_le, UInt8.reduceToNat] at h
  unfold Begun.IsWide
  -- One case for each range of first bytes, and one for the bytes that start no character.
  repeat' split at h
  case isFalse => cases h
  all_goals
    rw [Option.some.injEq] at h
    subst h
    simp
  all_goals omega

/-- The next byte of a wide character leaves it wide. -/
theorem Begun.IsWide.next {begun : Begun} (h : begun.IsWide) {more : Nat}
    (hmore : begun.more = more + 1) {b : UInt8} (hb : begun.low ≤ b) :
    Begun.IsWide { value := 64 * begun.value + (b.toNat - 0x80), more } := by
  have hlow : begun.low.toNat ≤ b.toNat := hb
  unfold IsWide at h ⊢
  rw [hmore, if_neg (Nat.succ_ne_zero more)] at h
  show (if more = 0 then 0x80 else 2) ≤ 64 * (64 * begun.value + (b.toNat - 0x80)) + (0x80 - 0x80)
  split <;> omega

theorem ofNat_ne_newline {n : Nat} (h : n ≠ 0x0A) : Char.ofNat n ≠ '\n' := by
  by_cases hvalid : n.isValidChar
  · rw [Char.ofNat, dif_pos hvalid]
    intro he
    exact h (congrArg Char.toNat he)
  · rw [Char.ofNat, dif_neg hvalid]
    decide

namespace Decoding

/-- The decoder has output no newline and will not do so for the current character. -/
structure IsOneLine (d : Decoding) : Prop where
  output : '\n' ∉ d.output
  begun : ∀ begun ∈ d.begun, begun.IsWide

theorem isOneLine_interrupt {d : Decoding} (h : d.IsOneLine) : '\n' ∉ d.interrupt.output := by
  unfold interrupt
  split
  next => exact h.output
  next =>
    rw [List.mem_cons, not_or]
    exact ⟨by decide, h.output⟩

theorem isOneLine_start {output : List Char} (h : '\n' ∉ output) {b : UInt8} (hb : b ≠ 0x0A) :
    (start output b).IsOneLine := by
  unfold start
  split
  next =>
    have hne : b.toNat ≠ 0x0A := fun he => hb (UInt8.toNat_inj.mp he)
    refine ⟨?_, fun _ hbegun => by cases hbegun⟩
    rw [List.mem_cons, not_or]
    exact ⟨(ofNat_ne_newline hne).symm, h⟩
  next =>
    split
    next begun hbegins =>
      refine ⟨h, fun other hother => ?_⟩
      cases hother
      exact isWide_of_beginning? hbegins
    next =>
      refine ⟨?_, fun _ hbegun => by cases hbegun⟩
      rw [List.mem_cons, not_or]
      exact ⟨by decide, h⟩

/-- A byte other than a newline preserves `IsOneLine`. -/
theorem isOneLine_take {d : Decoding} (h : d.IsOneLine) {b : UInt8} (hb : b ≠ 0x0A) :
    (d.take b).IsOneLine := by
  unfold take
  split
  next => exact isOneLine_start h.output hb
  next begun hbegun =>
    have hwide := h.begun begun hbegun
    split
    next hin =>
      have hlow : begun.low.toNat ≤ b.toNat := hin.1
      dsimp only
      split
      next hlast =>
        -- The last byte of a wide character.
        refine ⟨?_, fun _ hnone => by cases hnone⟩
        rw [Begun.IsWide, hlast, if_pos rfl] at hwide
        rw [List.mem_cons, not_or]
        exact ⟨(ofNat_ne_newline (by omega)).symm, h.output⟩
      next more hmore =>
        refine ⟨h.output, fun other hother => ?_⟩
        rw [Option.mem_def, Option.some.injEq] at hother
        rw [← hother]
        exact hwide.next hmore hin.1
    next => exact isOneLine_start (isOneLine_interrupt h) hb

theorem isOneLine_foldl_take {bytes : List UInt8} (hbytes : 0x0A ∉ bytes) {d : Decoding}
    (h : d.IsOneLine) : (bytes.foldl take d).IsOneLine := by
  induction bytes generalizing d with
  | nil => exact h
  | cons b rest ih =>
    rw [List.mem_cons, not_or] at hbytes
    exact ih hbytes.2 (isOneLine_take h (Ne.symm hbytes.1))

end Decoding

/-- Bytes without a newline byte decode to a text without newlines. -/
theorem not_mem_decode {bytes : List UInt8} (h : 0x0A ∉ bytes) : '\n' ∉ decode bytes := by
  have hempty : ({} : Decoding).IsOneLine := ⟨List.not_mem_nil, fun _ hbegun => by cases hbegun⟩
  have hline := Decoding.isOneLine_interrupt (Decoding.isOneLine_foldl_take h hempty)
  rw [decode, Decoding.text, List.mem_reverse]
  exact hline

/-! ## Decoding line by line -/

/-- Decoding and splitting into lines commute. -/
theorem pieces_decode (bytes : List UInt8) :
    pieces '\n' (decode bytes) = (bytes.splitOn 0x0A).map decode := by
  induction hn : bytes.length using Nat.strongRecOn generalizing bytes with
  | ind n ih =>
    by_cases hmem : 0x0A ∈ bytes
    · -- The first line is what stands before the first newline.
      obtain ⟨line, rest, rfl, hline⟩ := List.eq_append_cons_of_mem hmem
      have hshort : rest.length < n := by
        rw [List.length_append, List.length_cons] at hn
        omega
      rw [decode_append_newline, pieces_append_cons (not_mem_decode hline), ih _ hshort rest rfl,
        List.splitOn_append_cons_self_of_not_mem hline, List.map_cons]
    · rw [pieces_eq_singleton (not_mem_decode hmem), List.splitOn_eq_singleton hmem]
      rfl

end Text.Utf8

/-! ## The byte-order mark -/

open Text

/-- A line without a byte-order mark at its start. -/
def withoutMark : List Char → List Char
  | '\ufeff' :: rest => rest
  | line => line

theorem withoutMark_cons_of_ne {c : Char} (h : c ≠ '\ufeff') (rest : List Char) :
    withoutMark (c :: rest) = c :: rest := by
  unfold withoutMark
  split
  next he => exact absurd (List.cons.inj he).1 h
  next => rfl

/-- The byte-order mark of a text belongs to its first line. -/
theorem linesOf_eq_modifyHead (text : List Char) :
    linesOf text = (pieces '\n' text).modifyHead withoutMark := by
  cases text with
  | nil => rfl
  | cons c rest =>
    by_cases hmark : c = '\ufeff'
    · subst hmark
      rw [pieces_cons_of_ne (by decide), List.modifyHead_modifyHead]
      exact (congrFun List.modifyHead_id _).symm
    · rw [linesOf_eq_pieces (by simpa using hmark)]
      by_cases hline : c = '\n'
      · subst hline
        rw [pieces_cons_self]
        rfl
      · rw [pieces_cons_of_ne hline, List.modifyHead_modifyHead]
        congr 1
        funext line
        exact (withoutMark_cons_of_ne hmark line).symm

/-- The lines of a decoded text. -/
theorem linesOf_decode (bytes : List UInt8) :
    linesOf (Utf8.decode bytes)
      = ((bytes.splitOn 0x0A).map Utf8.decode).modifyHead withoutMark := by
  rw [linesOf_eq_modifyHead, Utf8.pieces_decode]

/-! ## Changing the bytes of one line -/

/-- Appending bytes extends the last piece. -/
theorem splitOn_append (sep : UInt8) (bytes : List UInt8) :
    ∃ before last, before.length = bytes.count sep
      ∧ ∀ {behind first after}, List.splitOn sep behind = first :: after
        → (bytes ++ behind).splitOn sep = before ++ (last ++ first) :: after := by
  induction bytes with
  | nil => exact ⟨[], [], rfl, fun hbehind => hbehind⟩
  | cons b bytes ih =>
    obtain ⟨before, last, hcount, hlines⟩ := ih
    by_cases hsep : (b == sep) = true
    · refine ⟨[] :: before, last, ?_, fun hbehind => ?_⟩
      · rw [List.count_cons, if_pos hsep, List.length_cons, hcount]
      · rw [List.cons_append, List.splitOn_cons_eq_if_modifyHead, if_pos hsep, hlines hbehind]
        rfl
    · have hcount' : before.length = (b :: bytes).count sep := by
        rw [List.count_cons, if_neg hsep, hcount, Nat.add_zero]
      cases before with
      | nil =>
        refine ⟨[], b :: last, hcount', fun hbehind => ?_⟩
        rw [List.cons_append, List.splitOn_cons_eq_if_modifyHead, if_neg hsep, hlines hbehind]
        rfl
      | cons line before =>
        refine ⟨(b :: line) :: before, last, hcount', fun hbehind => ?_⟩
        rw [List.cons_append, List.splitOn_cons_eq_if_modifyHead, if_neg hsep, hlines hbehind]
        rfl

/-- Inserting bytes without a separator changes one piece. -/
theorem splitOn_insert (sep : UInt8) (a b : List UInt8) :
    ∃ before after, before.length = a.count sep
      ∧ ∀ x, sep ∉ x → ∃ line, (a ++ x ++ b).splitOn sep = before ++ line :: after := by
  obtain ⟨before, last, hcount, hlines⟩ := splitOn_append sep a
  obtain ⟨first, after, hb⟩ := List.exists_cons_of_ne_nil (List.splitOn_ne_nil sep b)
  refine ⟨before, after, hcount, fun x hx => ?_⟩
  obtain ⟨before', last', hcount', hlines'⟩ := splitOn_append sep x
  have hone : before' = [] := by
    rw [List.count_eq_zero_of_not_mem hx] at hcount'
    exact List.length_eq_zero_iff.mp hcount'
  subst hone
  exact ⟨last ++ (last' ++ first), by rw [List.append_assoc]; exact hlines (hlines' hb)⟩

/-- Lists that differ at one index agree at all other indices. -/
theorem getElem?_append_cons_of_ne {α : Type} {before : List α} (x y : α) (after : List α)
    {place : Nat} (h : place ≠ before.length) :
    (before ++ y :: after)[place]? = (before ++ x :: after)[place]? := by
  rcases Nat.lt_or_gt_of_ne h with hlt | hgt
  · rw [List.getElem?_append_left hlt, List.getElem?_append_left hlt]
  · obtain ⟨behind, rfl⟩ := Nat.exists_eq_add_of_lt hgt
    rw [List.getElem?_append_right (by omega), List.getElem?_append_right (by omega),
      Nat.add_assoc, Nat.add_sub_cancel_left, List.getElem?_cons_succ, List.getElem?_cons_succ]

/-- **Malformed bytes stay within their line.** The lines of a member are its byte lines, decoded
one by one, where a byte-order mark is removed from the first; the chart and the diagnostics of the
member are those of these lines. If bytes inside one line are replaced by others without newlines,
all other lines keep their text and their index. -/
theorem ofMember_byteLines (m : Member) :
    let texts := (((Bytes.toList m.content).splitOn 0x0A).map Utf8.decode).modifyHead withoutMark
    let reader := Reader.feedAll {} texts
    linesOf (textOfBytes m.content) = texts
      ∧ Chart.ofMember m
        = ({ reader.finish with sourceFilename := m.path, contentHash := m.contentHash },
          reader.diagnostics.toList.map (.line m.path))
      ∧ ∀ a x y b : List UInt8, 0x0A ∉ x → 0x0A ∉ y →
        let lines := linesOf (Utf8.decode (a ++ x ++ b))
        let lines' := linesOf (Utf8.decode (a ++ y ++ b))
        lines'.length = lines.length
          ∧ ∀ place, place ≠ a.count 0x0A → lines'[place]? = lines[place]? := by
  intro texts reader
  have htexts : linesOf (textOfBytes m.content) = texts := linesOf_decode _
  refine ⟨htexts, ?_, ?_⟩
  · have hreader : Reader.feedAll {} (linesOf (textOfBytes m.content)) = reader := by
      rw [htexts]
    rw [← hreader]
    rfl
  · intro a x y b hx hy
    obtain ⟨before, after, hcount, hlines⟩ := splitOn_insert 0x0A a b
    obtain ⟨line, hline⟩ := hlines x hx
    obtain ⟨line', hline'⟩ := hlines y hy
    dsimp only
    rw [linesOf_decode, linesOf_decode, hline, hline', ← hcount]
    refine ⟨by simp, fun place hplace => ?_⟩
    simp only [List.getElem?_modifyHead, List.getElem?_map,
      getElem?_append_cons_of_ne line line' after hplace]

/-- A line that ends with the first byte of a two-byte character. -/
theorem ofMember_byteLines_of_cut_character :
    let title := "[Metadata]\nTitle: ".toUTF8.data.toList
    let artist := "\nArtist: \u3042".toUTF8.data.toList
    let lines := linesOf (Utf8.decode (title ++ [0xE3, 0x81, 0x82] ++ artist))
    let lines' := linesOf (Utf8.decode (title ++ [0xE3, 0x81] ++ artist))
    lines[1]? = some "Title: \u3042".toList ∧ lines'[1]? = some "Title: \ufffd".toList
      ∧ lines'.length = lines.length ∧ lines'[2]? = lines[2]? := by
  intro title artist lines lines'
  obtain ⟨-, -, hdamage⟩ := ofMember_byteLines (Member.ofContent "a.osu" .empty)
  obtain ⟨hlength, hothers⟩ :=
    hdamage title [0xE3, 0x81, 0x82] [0xE3, 0x81] artist (by decide) (by decide)
  exact ⟨by decide +kernel, by decide +kernel, hlength, hothers 2 (by decide +kernel)⟩

end Beatmap
