import Beatmap.Proofs.Literals
import Mathlib.Data.List.DropRight
import Mathlib.Tactic.SplitIfs

/-!
# Parsing printed values

`parse_print`: a value with regular numbers, printed in any style, is parsed back as the same value.
Strings need no condition, since every escape is decoded to the character that it stands for
(`readString_printString`).

The parser carries a fuel argument. The length of a printed value is enough fuel, since every
recursive call on a printed value consumes a character first.
-/

namespace Beatmap.Json

/-! ## Strings -/

theorem hexValue?_hexDigit : ∀ n < 16, hexValue? (hexDigit n) = some n := by decide

/-- An escaped control character is decoded from its code point. -/
theorem readString_control {c : Char} (h : c.toNat < 0x20) (s : StringRead) (rest : List Char) :
    readString .plain s
        ('\\' :: 'u' :: '0' :: '0' :: hexDigit (c.toNat / 16) :: hexDigit (c.toNat % 16) :: rest)
      = readString .plain (s.push c) rest := by
  have hzero : hexValue? '0' = some 0 := by decide
  have hhigh := hexValue?_hexDigit (c.toNat / 16) (by omega)
  have hlow := hexValue?_hexDigit (c.toNat % 16) (by omega)
  have hnumber : 16 * (c.toNat / 16) + c.toNat % 16 = c.toNat := Nat.div_add_mod ..
  have hhalf : isHighHalf c.toNat = false ∧ isLowHalf c.toNat = false := by
    simp only [isHighHalf, isLowHalf, Bool.and_eq_false_iff, decide_eq_false_iff_not]
    omega
  simp only [readString, Char.reduceEq, if_false, if_true, hzero, hhigh, hlow, Nat.reduceEqDiff,
    Nat.mul_zero, Nat.zero_add, Nat.reduceAdd, hnumber, StringRead.pushUnit, hhalf.1, hhalf.2,
    Bool.false_eq_true, Char.ofNat_toNat]

/-- The representation of a character is decoded to that character. -/
theorem readString_escape (c : Char) (s : StringRead) (rest : List Char) :
    readString .plain s (escape c ++ rest) = readString .plain (s.push c) rest := by
  unfold escape
  split_ifs with hquote hslash hback hfeed hline hreturn htab hcontrol
  · subst hquote; rfl
  · subst hslash; rfl
  · subst hback; rfl
  · subst hfeed; rfl
  · subst hline; rfl
  · subst hreturn; rfl
  · subst htab; rfl
  · exact readString_control hcontrol s rest
  · rw [List.singleton_append, readString, if_neg hquote, if_neg hslash, if_neg hcontrol]

theorem readString_flatMap_escape (cs done rest : List Char) :
    readString .plain ⟨some done, none⟩ (cs.flatMap escape ++ '"' :: rest)
      = some (some (String.ofList (done.reverse ++ cs)), rest) := by
  induction cs generalizing done with
  | nil =>
    rw [List.flatMap_nil, List.nil_append, List.append_nil]
    rfl
  | cons c cs ih =>
    have hpush : StringRead.push ⟨some done, none⟩ c = ⟨some (c :: done), none⟩ := rfl
    rw [List.flatMap_cons, List.append_assoc, readString_escape, hpush, ih, List.reverse_cons,
      List.append_assoc, List.singleton_append]

/-- A printed string is parsed back after its opening quote. -/
theorem readString_printString (content : Content) (rest : List Char) :
    ∃ text, printString content ++ rest = '"' :: text
      ∧ readString .plain {} text = some (content, rest) := by
  cases content with
  | none =>
    have hprint : printString none = ['"', '\\', 'u', 'd', '8', '0', '0', '"'] := by decide
    refine ⟨'\\' :: 'u' :: 'd' :: '8' :: '0' :: '0' :: '"' :: rest, by rw [hprint]; rfl, ?_⟩
    simp [readString, hexValue?, StringRead.pushUnit, isHighHalf, StringRead.content]
  | some s =>
    refine ⟨s.toList.flatMap escape ++ '"' :: rest, ?_, ?_⟩
    · show '"' :: s.toList.flatMap escape ++ ['"'] ++ rest = _
      rw [List.cons_append, List.cons_append, List.append_assoc, List.singleton_append]
    · have hread := readString_flatMap_escape s.toList [] rest
      rwa [List.reverse_nil, List.nil_append, String.ofList_toList] at hread

/-! ## White space -/

theorem skipBlanks_append {gap : List Char} (h : ∀ c ∈ gap, isBlank c = true) (text : List Char) :
    skipBlanks (gap ++ text) = skipBlanks text := List.dropWhile_append_of_pos h

theorem skipBlanks_cons {c : Char} (h : isBlank c = false) (text : List Char) :
    skipBlanks (c :: text) = c :: text := List.dropWhile_cons_of_neg (by simp [h])

theorem skipBlanks_skipBlanks (text : List Char) : skipBlanks (skipBlanks text) = skipBlanks text :=
  List.dropWhile_idempotent _ _

theorem readValue_congr (bound : Nat) {text text' : List Char}
    (h : skipBlanks text = skipBlanks text') : readValue bound text = readValue bound text' := by
  cases bound with
  | zero => rfl
  | succ bound => rw [readValue, readValue, h]

theorem readItems_congr (bound : Nat) {text text' : List Char}
    (h : skipBlanks text = skipBlanks text') : readItems bound text = readItems bound text' := by
  cases bound with
  | zero => rfl
  | succ bound => rw [readItems, readItems, readValue_congr bound h]

theorem readFields_congr (bound : Nat) {text text' : List Char}
    (h : skipBlanks text = skipBlanks text') : readFields bound text = readFields bound text' := by
  cases bound with
  | zero => rfl
  | succ bound => rw [readFields, readFields, h]

/-- The closing bracket does not start a list of items. -/
theorem readItems_end (bound : Nat) (rest : List Char) : readItems bound (']' :: rest) = none := by
  have hvalue : ∀ bound, readValue bound (']' :: rest) = none := by
    intro bound
    cases bound <;> rfl
  cases bound with
  | zero => rfl
  | succ bound => rw [readItems, hvalue]

theorem readFields_end (bound : Nat) (rest : List Char) :
    readFields bound ('\x7d' :: rest) = none := by
  cases bound <;> rfl

theorem endsNumber_append {gap rest : List Char} (h : ∀ c ∈ gap, isBlank c = true)
    (hr : EndsNumber rest) : EndsNumber (gap ++ rest) := by
  cases gap with
  | nil => exact hr
  | cons c gap =>
    intro d hd
    cases hd
    have hc := h c (List.mem_cons_self ..)
    simp only [isBlank, Bool.or_eq_true, beq_iff_eq] at hc
    rcases hc with ((rfl | rfl) | rfl) | rfl <;> decide

theorem endsNumber_cons {c : Char} {rest : List Char} (h : c = ',' ∨ c = ']' ∨ c = '\x7d') :
    EndsNumber (c :: rest) := by
  intro d hd
  cases hd
  rcases h with rfl | rfl | rfl <;> decide

/-! ## Values -/

/-- All numbers of the value are regular. -/
inductive Value.IsRegular : Value → Prop
  | null : IsRegular .null
  | bool (b : Bool) : IsRegular (.bool b)
  | number {l : Literal} (h : l.IsRegular) : IsRegular (.number l)
  | string (content : Content) : IsRegular (.string content)
  | array {items : List Value} (h : ∀ v ∈ items, IsRegular v) : IsRegular (.array items)
  | object {fields : List (Content × Value)} (h : ∀ f ∈ fields, IsRegular f.2) :
    IsRegular (.object fields)

/-- The value is parsed back at every nesting level. -/
def ReadBack (style : Style) (v : Value) : Prop :=
  ∀ level bound rest, (v.printAt style level).length < bound → EndsNumber rest
    → readValue bound (v.printAt style level ++ rest) = some (v, rest)

theorem ReadBack.of_succ {style : Style} {v : Value}
    (h : ∀ level bound rest, (v.printAt style level).length ≤ bound → EndsNumber rest
      → readValue (bound + 1) (v.printAt style level ++ rest) = some (v, rest)) :
    ReadBack style v := by
  intro level bound rest hb hr
  obtain ⟨bound, rfl⟩ := Nat.exists_eq_add_one_of_ne_zero (Nat.ne_zero_of_lt hb)
  exact h level bound rest (Nat.lt_add_one_iff.mp hb) hr

theorem endsNumber_printItems (style : Style) (level : Nat) (vs : List Value) (rest : List Char) :
    EndsNumber (printItems style level vs ++ rest) := by
  cases vs with
  | nil =>
    rw [printItems, List.append_assoc]
    exact endsNumber_append (style.isBlank_of_mem_line level) (endsNumber_cons (by decide))
  | cons v vs => exact endsNumber_cons (by decide)

theorem endsNumber_printFields (style : Style) (level : Nat) (fs : List (Content × Value))
    (rest : List Char) : EndsNumber (printFields style level fs ++ rest) := by
  cases fs with
  | nil =>
    rw [printFields, List.append_assoc]
    exact endsNumber_append (style.isBlank_of_mem_line level) (endsNumber_cons (by decide))
  | cons f fs => exact endsNumber_cons (by decide)

theorem readItems_print {style : Style} {level : Nat} {v : Value} {vs : List Value}
    (h : ∀ w ∈ v :: vs, ReadBack style w) (bound : Nat) (rest : List Char)
    (hb : (v.printAt style (level + 1) ++ printItems style level vs).length < bound) :
    readItems bound (v.printAt style (level + 1) ++ printItems style level vs ++ rest)
      = some (v :: vs, rest) := by
  induction vs generalizing v bound with
  | nil =>
    rw [printItems, List.length_append, List.length_append, List.length_singleton] at hb
    obtain ⟨bound, rfl⟩ : ∃ b, bound = b + 1 := ⟨bound - 1, by omega⟩
    have hv := h v (List.mem_cons_self ..) (level + 1) bound (printItems style level [] ++ rest)
      (by omega) (endsNumber_printItems _ _ _ _)
    rw [List.append_assoc, readItems, hv]
    have hend : skipBlanks (printItems style level [] ++ rest) = ']' :: rest := by
      rw [printItems, List.append_assoc, skipBlanks_append (style.isBlank_of_mem_line level)]
      rfl
    simp only [hend]
  | cons w vs ih =>
    rw [printItems, List.length_append, List.cons_append, List.cons_append, List.length_cons,
      List.append_assoc, List.length_append] at hb
    obtain ⟨bound, rfl⟩ : ∃ b, bound = b + 1 := ⟨bound - 1, by omega⟩
    have hv := h v (List.mem_cons_self ..) (level + 1) bound
      (printItems style level (w :: vs) ++ rest) (by omega) (endsNumber_printItems _ _ _ _)
    have hvs := ih (v := w) (fun u hu => h u (List.mem_cons_of_mem _ hu)) bound (by omega)
    rw [List.append_assoc, readItems, hv]
    have hcomma : skipBlanks (printItems style level (w :: vs) ++ rest)
        = ',' :: (style.line (level + 1)
          ++ (w.printAt style (level + 1) ++ printItems style level vs ++ rest)) := by
      rw [printItems, List.cons_append, List.cons_append, List.cons_append,
        skipBlanks_cons (by decide), List.append_assoc, List.append_assoc, List.append_assoc]
    simp only [hcomma]
    rw [readItems_congr bound (skipBlanks_append (style.isBlank_of_mem_line _) _), hvs]
    rfl

/-- A field is parsed as its name, the colon and its value. -/
theorem readField_parts {style : Style} {level bound : Nat} (name : Content) {v : Value}
    (h : ReadBack style v) {rest : List Char}
    (hb : (v.printAt style (level + 1)).length < bound) (hr : EndsNumber rest) :
    ∃ text, printString name ++ ':' :: style.gap ++ v.printAt style (level + 1) ++ rest
      = '"' :: text
      ∧ readString .plain {} text
        = some (name, ':' :: (style.gap ++ (v.printAt style (level + 1) ++ rest)))
      ∧ readValue bound (style.gap ++ (v.printAt style (level + 1) ++ rest)) = some (v, rest) := by
  obtain ⟨text, hquote, hname⟩ := readString_printString name
    (':' :: (style.gap ++ (v.printAt style (level + 1) ++ rest)))
  refine ⟨text, ?_, hname, ?_⟩
  · rw [← hquote, List.append_assoc, List.append_assoc, List.cons_append]
  · rw [readValue_congr bound (skipBlanks_append style.isBlank_of_mem_gap _)]
    exact h (level + 1) bound rest hb hr

theorem readFields_last {style : Style} {level bound : Nat} {name : Content} {v : Value}
    (h : ReadBack style v) {rest after : List Char}
    (hb : (v.printAt style (level + 1)).length < bound) (hr : EndsNumber rest)
    (ha : skipBlanks rest = '\x7d' :: after) :
    readFields (bound + 1)
        (printString name ++ ':' :: style.gap ++ v.printAt style (level + 1) ++ rest)
      = some ([(name, v)], after) := by
  obtain ⟨text, htext, hname, hvalue⟩ := readField_parts name h hb hr
  rw [htext, readFields, skipBlanks_cons (by decide)]
  simp only [hname, skipBlanks_cons (show isBlank ':' = false by decide), hvalue, ha]

theorem readFields_more {style : Style} {level bound : Nat} {name : Content} {v : Value}
    (h : ReadBack style v) {rest after : List Char}
    (hb : (v.printAt style (level + 1)).length < bound) (hr : EndsNumber rest)
    (ha : skipBlanks rest = ',' :: after) :
    readFields (bound + 1)
        (printString name ++ ':' :: style.gap ++ v.printAt style (level + 1) ++ rest)
      = (readFields bound after).map fun (fs, rest) => ((name, v) :: fs, rest) := by
  obtain ⟨text, htext, hname, hvalue⟩ := readField_parts name h hb hr
  rw [htext, readFields, skipBlanks_cons (by decide)]
  simp only [hname, skipBlanks_cons (show isBlank ':' = false by decide), hvalue, ha]

theorem readFields_print {style : Style} {level : Nat} {f : Content × Value}
    {fs : List (Content × Value)} (h : ∀ g ∈ f :: fs, ReadBack style g.2) (bound : Nat)
    (rest : List Char)
    (hb : (printString f.1 ++ ':' :: style.gap ++ f.2.printAt style (level + 1)
      ++ printFields style level fs).length < bound) :
    readFields bound (printString f.1 ++ ':' :: style.gap ++ f.2.printAt style (level + 1)
        ++ printFields style level fs ++ rest)
      = some (f :: fs, rest) := by
  induction fs generalizing f bound with
  | nil =>
    simp only [printFields, List.length_append, List.length_cons, List.length_nil] at hb
    obtain ⟨bound, rfl⟩ : ∃ b, bound = b + 1 := ⟨bound - 1, by omega⟩
    have hend : skipBlanks (printFields style level [] ++ rest) = '\x7d' :: rest := by
      rw [printFields, List.append_assoc, skipBlanks_append (style.isBlank_of_mem_line level)]
      rfl
    rw [List.append_assoc, readFields_last (h f (List.mem_cons_self ..)) (by omega)
      (endsNumber_printFields _ _ _ _) hend]
  | cons g fs ih =>
    simp only [printFields, List.length_append, List.length_cons] at hb
    obtain ⟨bound, rfl⟩ : ∃ b, bound = b + 1 := ⟨bound - 1, by omega⟩
    have hfs := ih (f := g) (fun e he => h e (List.mem_cons_of_mem _ he)) bound
      (by simp only [List.length_append, List.length_cons]; omega)
    have hcomma : skipBlanks (printFields style level (g :: fs) ++ rest)
        = ',' :: (style.line (level + 1)
          ++ (printString g.1 ++ ':' :: style.gap ++ g.2.printAt style (level + 1)
            ++ printFields style level fs ++ rest)) := by
      simp only [printFields, List.cons_append,
        skipBlanks_cons (show isBlank ',' = false by decide), List.append_assoc]
    rw [List.append_assoc, readFields_more (h f (List.mem_cons_self ..)) (by omega)
      (endsNumber_printFields _ _ _ _) hcomma]
    rw [readFields_congr bound (skipBlanks_append (style.isBlank_of_mem_line _) _), hfs]
    rfl

theorem readValue_number {l : Literal} (h : l.IsRegular) (bound : Nat) {rest : List Char}
    (hr : EndsNumber rest) :
    readValue (bound + 1) (l.print ++ rest) = some (.number l, rest) := by
  have hread := readLiteral_print h hr
  obtain ⟨c, text, htext, hc⟩ : ∃ c text, l.print ++ rest = c :: text
      ∧ (c = '-' ∨ Number.isDigit c = true) := by
    obtain ⟨c, others, hwhole⟩ := List.exists_cons_of_ne_nil h.whole_ne_nil
    have hdigit : Number.isDigit c = true := h.whole_digits c (by simp [hwhole])
    unfold Literal.print
    split
    next => exact ⟨'-', _, rfl, Or.inl rfl⟩
    next =>
      rw [hwhole]
      exact ⟨c, _, rfl, Or.inr hdigit⟩
  have hne : ∀ d, d ≠ '-' → Number.isDigit d = false → c ≠ d := by
    rintro d hminus hdigit rfl
    rcases hc with hc | hc
    · exact hminus hc
    · rw [hc] at hdigit
      cases hdigit
  have hblank : isBlank c = false := by
    simp only [isBlank, Bool.or_eq_false_iff, beq_eq_false_iff_ne]
    refine ⟨⟨⟨?_, ?_⟩, ?_⟩, ?_⟩ <;> exact hne _ (by decide) (by decide)
  rw [htext] at hread ⊢
  rw [readValue, skipBlanks_cons hblank]
  split
  all_goals try
    next he =>
      cases he
      exact absurd rfl (hne _ (by decide) (by decide))
  rw [hread]
  rfl

theorem readValue_items {bound : Nat} {text : List Char} {vs : List Value} {rest : List Char}
    (h : readItems bound text = some (vs, rest)) :
    readValue (bound + 1) ('[' :: text) = some (.array vs, rest) := by
  rw [readItems_congr bound (skipBlanks_skipBlanks text).symm] at h
  rw [readValue, skipBlanks_cons (by decide)]
  simp only []
  split
  next others he =>
    rw [he, readItems_end] at h
    cases h
  next =>
    rw [h]
    rfl

theorem readValue_fields {bound : Nat} {text : List Char} {fs : List (Content × Value)}
    {rest : List Char} (h : readFields bound text = some (fs, rest)) :
    readValue (bound + 1) ('\x7b' :: text) = some (.object fs, rest) := by
  rw [readFields_congr bound (skipBlanks_skipBlanks text).symm] at h
  rw [readValue, skipBlanks_cons (by decide)]
  simp only []
  split
  next others he =>
    rw [he, readFields_end] at h
    cases h
  next =>
    rw [h]
    rfl

/-- Every value with regular numbers is parsed back. -/
theorem Value.IsRegular.readBack (style : Style) {v : Value} (h : v.IsRegular) :
    ReadBack style v := by
  induction h with
  | null => exact .of_succ fun _ _ _ _ _ => rfl
  | bool b =>
    refine .of_succ fun _ _ _ _ _ => ?_
    cases b <;> rfl
  | number h => exact .of_succ fun _ bound _ _ hr => readValue_number h bound hr
  | string content =>
    refine .of_succ fun level bound rest _ _ => ?_
    obtain ⟨text, hquote, hread⟩ := readString_printString content rest
    show readValue (bound + 1) (printString content ++ rest) = _
    rw [hquote, readValue, skipBlanks_cons (by decide)]
    simp only [hread, Option.map_some]
  | @array items h ih =>
    refine .of_succ fun level bound rest hb hr => ?_
    cases items with
    | nil => rfl
    | cons v vs =>
      simp only [printAt, List.cons_append, List.length_cons, List.length_append] at hb
      have hitems :
          readItems bound (v.printAt style (level + 1) ++ printItems style level vs ++ rest)
          = some (v :: vs, rest) :=
        readItems_print ih bound rest (by rw [List.length_append]; omega)
      rw [printAt, List.cons_append, List.cons_append, List.cons_append]
      apply readValue_items
      rw [List.append_assoc, List.append_assoc,
        readItems_congr bound (skipBlanks_append (style.isBlank_of_mem_line _) _),
        ← List.append_assoc]
      exact hitems
  | @object fields h ih =>
    refine .of_succ fun level bound rest hb hr => ?_
    cases fields with
    | nil => rfl
    | cons f fs =>
      simp only [printAt, List.cons_append, List.length_cons, List.length_append] at hb
      have hfields : readFields bound (printString f.1 ++ ':' :: style.gap
          ++ f.2.printAt style (level + 1) ++ printFields style level fs ++ rest)
            = some (f :: fs, rest) :=
        readFields_print ih bound rest
          (by simp only [List.length_append, List.length_cons]; omega)
      have htext : (Value.object (f :: fs)).printAt style level ++ rest
          = '\x7b' :: (style.line (level + 1)
            ++ (printString f.1 ++ ':' :: style.gap ++ f.2.printAt style (level + 1)
              ++ printFields style level fs ++ rest)) := by
        simp only [printAt, List.cons_append, List.append_assoc]
      rw [htext]
      apply readValue_fields
      rw [readFields_congr bound (skipBlanks_append (style.isBlank_of_mem_line _) _)]
      exact hfields

/-- **Parsing printed values.** The text of a value with regular numbers, printed in any style, is
parsed back as the value. -/
theorem parse_print (style : Style) {v : Value} (h : v.IsRegular) :
    parse (v.print style) = some v := by
  have hread : readValue (2 * (v.print style).length + 2) (v.print style ++ []) = some (v, []) := by
    apply h.readBack style 0
    · show (v.print style).length < _
      omega
    · simp [EndsNumber]
  rw [List.append_nil] at hread
  rw [parse, hread]
  rfl

end Beatmap.Json
