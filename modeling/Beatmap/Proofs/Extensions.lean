import Beatmap.Mapset.Role
import Beatmap.Proofs.LetterCase

/-!
# Extensions of normalised paths

The last component of a path is the text after its last separator, and the extension is the text
after the last dot of that component (`lastPart_append`, `extensionOfName?_append`). Lower case
preserves separators and dots, so the extension of a normalised path is the lower case of the
extension (`rel_extension?_comparable`). Unicode and ASCII lower case of an extension may differ,
but in that case neither is the extension of a role. Normalising a path therefore preserves its role
(`Role.ofPath_comparable`).
-/

namespace Beatmap

open Beatmap.Text

namespace Path

/-! ## The last separator -/

/-- A list has no element with a property, or is split at the last one. -/
theorem exists_cut_at_last {α : Type} (p : α → Bool) (l : List α) :
    (∀ c ∈ l, p c = false)
      ∨ ∃ front mark back, l = front ++ mark :: back ∧ p mark = true ∧ ∀ c ∈ back, p c = false := by
  induction l with
  | nil => exact .inl (by simp)
  | cons d rest ih =>
    rcases ih with hnone | ⟨front, mark, back, rfl, hmark, hback⟩
    · cases hd : p d with
      | true => exact .inr ⟨[], d, rest, rfl, hd, hnone⟩
      | false => exact .inl (List.forall_mem_cons.mpr ⟨hd, hnone⟩)
    · exact .inr ⟨d :: front, mark, back, rfl, hmark, hback⟩

/-- Reading a list from the back up to a mark gives the part after the last mark. -/
theorem span_reverse {α : Type} (p : α → Bool) (front : List α) {mark : α} {back : List α}
    (hmark : p mark = false) (h : ∀ c ∈ back, p c = true) :
    (front ++ mark :: back).reverse.takeWhile p = back.reverse
      ∧ (front ++ mark :: back).reverse.dropWhile p = mark :: front.reverse := by
  have hback : ∀ c ∈ back.reverse, p c = true := fun c hc => h c (List.mem_reverse.mp hc)
  have hnot : ¬p mark = true := by simp [hmark]
  have hreverse : (front ++ mark :: back).reverse = back.reverse ++ mark :: front.reverse := by simp
  rw [hreverse, List.takeWhile_append_of_pos hback, List.dropWhile_append_of_pos hback,
    List.takeWhile_cons_of_neg hnot, List.dropWhile_cons_of_neg hnot, List.append_nil]
  exact ⟨rfl, rfl⟩

theorem lastPart_eq_self {part : List Char} (h : ∀ c ∈ part, isSeparator c = false) :
    lastPart part = part := by
  have hall : ∀ c ∈ part.reverse, (!isSeparator c) = true := by
    intro c hc
    rw [h c (List.mem_reverse.mp hc), Bool.not_false]
  rw [lastPart, List.takeWhile_eq_self_iff.mpr hall, List.reverse_reverse]

theorem lastPart_append {front part : List Char} {mark : Char} (hmark : isSeparator mark = true)
    (h : ∀ c ∈ part, isSeparator c = false) : lastPart (front ++ mark :: part) = part := by
  have hstop : (!isSeparator mark) = false := by rw [hmark, Bool.not_true]
  have hpart : ∀ c ∈ part, (!isSeparator c) = true := fun c hc => by rw [h c hc, Bool.not_false]
  obtain ⟨htake, -⟩ := span_reverse (fun c => !isSeparator c) front hstop hpart
  rw [lastPart, htake, List.reverse_reverse]

theorem isSeparator_of_mem_lastPart {path : List Char} {c : Char} (h : c ∈ lastPart path) :
    isSeparator c = false := by
  simpa using List.mem_takeWhile_imp (List.mem_reverse.mp h)

theorem extensionOfName?_eq_none {name : List Char} (h : '.' ∉ name) :
    extensionOfName? name = none := by
  have hall : ∀ c ∈ name.reverse, (c != '.') = true := by
    intro c hc
    exact bne_iff_ne.mpr (ne_of_mem_of_not_mem (List.mem_reverse.mp hc) h)
  rw [extensionOfName?, List.dropWhile_eq_nil_iff.mpr hall, ite_self]

theorem extensionOfName?_append {stem ext : List Char} (h : '.' ∉ ext) :
    extensionOfName? (stem ++ '.' :: ext)
      = if stem = [] ∨ stem = ['.'] ∧ ext = [] then none else some ext := by
  have hext : ∀ c ∈ ext, (c != '.') = true := fun c hc => bne_iff_ne.mpr (ne_of_mem_of_not_mem hc h)
  obtain ⟨htake, hdrop⟩ := span_reverse (· != '.') stem (bne_self_eq_false '.') hext
  have hdots : stem ++ '.' :: ext = ['.', '.'] ↔ stem = ['.'] ∧ ext = [] := by
    constructor
    · intro he
      cases stem with
      | nil =>
        have hone : ext = ['.'] := by simpa using he
        exact absurd (hone ▸ List.mem_singleton_self '.') h
      | cons c rest =>
        cases rest with
        | nil => simpa using he
        | cons d rest => simp at he
    · rintro ⟨rfl, rfl⟩
      rfl
  rw [extensionOfName?, hdrop, htake, List.reverse_reverse]
  by_cases hstem : stem = []
  · simp [hstem]
  · simp [hdots, hstem]

/-! ## Lower case preserves marks -/

theorem isMark_of_isSeparator {c : Char} (h : isSeparator c = true) : IsMark c := by
  have hboth : c = '/' ∨ c = '\\' := by simpa [isSeparator] using h
  unfold IsMark IsLower
  rcases hboth with rfl | rfl
  · decide +kernel
  · decide +kernel

theorem isMark_dot : IsMark '.' := by
  unfold IsMark IsLower
  decide +kernel

theorem no_separator_of_lowered {text lowered : List Char} (h : Lowered text lowered)
    (hnone : ∀ c ∈ text, isSeparator c = false) : ∀ c ∈ lowered, isSeparator c = false := by
  intro c hc
  rw [← Bool.not_eq_true]
  intro hmark
  have htext : c ∈ text := (h.mem_iff (isMark_of_isSeparator hmark)).mp hc
  rw [hnone c htext] at hmark
  cases hmark

theorem lowered_lastPart {path lowered : List Char} (h : Lowered path lowered) :
    Lowered (lastPart path) (lastPart lowered) := by
  rcases exists_cut_at_last isSeparator path with hnone | ⟨front, mark, part, rfl, hmark, hpart⟩
  · rw [lastPart_eq_self hnone, lastPart_eq_self (no_separator_of_lowered h hnone)]
    exact h
  · obtain ⟨before, after, rfl, -, hafter⟩ := h.append
    obtain ⟨last, rfl, hlast⟩ := hafter.cons_mark (isMark_of_isSeparator hmark)
    rw [lastPart_append hmark hpart, lastPart_append hmark (no_separator_of_lowered hlast hpart)]
    exact hlast

theorem rel_extensionOfName? {name lowered : List Char} (h : Lowered name lowered) :
    Option.Rel Lowered (extensionOfName? name) (extensionOfName? lowered) := by
  rcases exists_cut_at_last (· == '.') name with hnone | ⟨stem, mark, ext, rfl, hmark, hext⟩
  · have hname : '.' ∉ name := fun hm => by simpa using hnone _ hm
    have hlowered : '.' ∉ lowered := fun hm => hname ((h.mem_iff isMark_dot).mp hm)
    rw [extensionOfName?_eq_none hname, extensionOfName?_eq_none hlowered]
    exact .none
  · obtain rfl : mark = '.' := by simpa using hmark
    have hdot : '.' ∉ ext := fun hm => by simpa using hext _ hm
    obtain ⟨before, after, rfl, hbefore, hafter⟩ := h.append
    obtain ⟨last, rfl, hlast⟩ := hafter.cons_mark isMark_dot
    have hdot' : '.' ∉ last := fun hm => hdot ((hlast.mem_iff isMark_dot).mp hm)
    rw [extensionOfName?_append hdot, extensionOfName?_append hdot']
    simp only [hbefore.eq_nil_iff, hbefore.eq_singleton_iff isMark_dot, hlast.eq_nil_iff]
    split
    · exact .none
    · exact .some hlast

theorem lastPart_forwardSlashes (path : List Char) :
    lastPart (forwardSlashes path) = lastPart path := by
  have hkeeps : (fun c => !isSeparator c) ∘ (fun c => if c = '\\' then '/' else c)
      = fun c => !isSeparator c := by
    funext c
    by_cases hc : c = '\\'
    · simp [hc, isSeparator]
    · simp [hc]
  have hself : forwardSlashes (lastPart path) = lastPart path := by
    apply forwardSlashes_eq_self
    intro hm
    exact absurd (isSeparator_of_mem_lastPart hm) (by decide)
  rw [← hself, lastPart, lastPart, forwardSlashes, forwardSlashes, List.map_reverse,
    ← List.map_reverse, List.takeWhile_map, hkeeps]

/-- A path and its normal form have related extensions, or none of them has one. -/
theorem rel_extension?_comparable (path : List Char) :
    Option.Rel Lowered (extension? path) (extension? (comparable path)) := by
  have hlowered : Lowered (forwardSlashes path) (comparable path) := lowered_lowerCase _
  rw [extension?, ← lastPart_forwardSlashes]
  exact rel_extensionOfName? (lowered_lastPart hlowered)

theorem isSeparator_of_mem_extension? {path ext : List Char}
    (h : extension? path = some ext) {c : Char}
    (hc : c ∈ ext) : isSeparator c = false := by
  have hpart : c ∈ lastPart path := by
    unfold extension? extensionOfName? at h
    split at h
    · cases h
    · split at h
      · cases h
      · split at h
        · cases h
        · cases h
          exact List.mem_reverse.mp ((List.takeWhile_prefix _).subset (List.mem_reverse.mp hc))
  exact isSeparator_of_mem_lastPart hpart

end Path

namespace Role

/-- A path without an extension has the role of the empty extension. -/
theorem ofPath_eq_ofExtension (path : List Char) :
    ofPath path = ofExtension ((Path.lowerExtension? path).getD []) := by
  unfold ofPath
  cases Path.lowerExtension? path with
  | none => decide
  | some ext => rfl

/-- The extensions of the roles consist of plain characters. -/
theorem ofExtension_of_not_plain {ext : List Char} (h : ∃ d ∈ ext, ¬IsPlain d) :
    ofExtension ext = other := by
  have hplain : ∀ role ∈ all, ∀ name ∈ role.extensions, name.toList.all
      (fun d => decide (d.toNat < 0x80) && d != 'k') = true := by decide +kernel
  have hnone : all.find? (fun role => role.extensions.any fun name => name.toList == ext)
      = none := by
    rw [List.find?_eq_none]
    intro role hrole hany
    obtain ⟨name, hname, heq⟩ := List.any_eq_true.mp hany
    obtain ⟨d, hd, hnot⟩ := h
    have hall := List.all_eq_true.mp (hplain role hrole name hname) d (eq_of_beq heq ▸ hd)
    exact hnot (by simpa [IsPlain] using hall)
  rw [ofExtension, hnone]
  rfl

theorem ofExtension_lowered {ext lowered : List Char} (h : Lowered ext lowered) :
    ofExtension lowered = ofExtension (lowerAsciiText ext) := by
  rcases h.eq_or_not_plain with rfl | ⟨hlowered, hascii⟩
  · rfl
  · rw [ofExtension_of_not_plain hlowered, ofExtension_of_not_plain hascii]

/-- Normalising a path preserves its role. -/
theorem ofPath_comparable (path : List Char) : ofPath (Path.comparable path) = ofPath path := by
  unfold ofPath Path.lowerExtension?
  generalize hpath : Path.extension? path = ext?
  generalize hform : Path.extension? (Path.comparable path) = lowered?
  have hrel := Path.rel_extension?_comparable path
  rw [hpath, hform] at hrel
  cases hrel with
  | none => rfl
  | some hlowered =>
    show ofExtension (lowerAsciiText _) = ofExtension (lowerAsciiText _)
    rw [hlowered.lowerAsciiText_eq, ofExtension_lowered hlowered]

end Role

end Beatmap
