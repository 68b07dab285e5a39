import Beatmap.Text.Ascii
import Beatmap.Text.LowerCase

/-!
# Member paths

Archives use `/` or `\` as the separator of paths, and charts refer to files in arbitrary case.
`comparable` is the normal form in which two paths are compared, and `extension?` returns the
extension in its original case.
-/

namespace Beatmap.Path

open Beatmap.Text

/-- Whether `c` is a separator. -/
def isSeparator (c : Char) : Bool := c == '/' || c == '\\'

/-- The last component of a path. -/
def lastPart (path : List Char) : List Char :=
  (path.reverse.takeWhile (!isSeparator ·)).reverse

/-- The text after the last dot of a file name. A name whose only dot is its first character has no
extension, and neither has `..`. -/
def extensionOfName? (name : List Char) : Option (List Char) :=
  if name = ['.', '.'] then none
  else match name.reverse.dropWhile (· != '.') with
    | [] => none
    | _ :: stem =>
      if stem.isEmpty then none else some (name.reverse.takeWhile (· != '.')).reverse

/-- The extension of the last component. -/
def extension? (path : List Char) : Option (List Char) := extensionOfName? (lastPart path)

/-- The extension in ASCII lower case. -/
def lowerExtension? (path : List Char) : Option (List Char) := (extension? path).map lowerAsciiText

/-- Replaces every separator by `/`. -/
def forwardSlashes (path : List Char) : List Char := path.map fun c => if c = '\\' then '/' else c

/-- The normal form for comparison: forward slashes and Unicode lower case. -/
def comparable (path : List Char) : List Char := lowerCase (forwardSlashes path)

theorem not_mem_forwardSlashes (text : List Char) : '\\' ∉ forwardSlashes text := by
  unfold forwardSlashes
  rw [List.mem_map]
  rintro ⟨c, _, hc⟩
  split at hc
  · exact absurd hc (by decide)
  · next h => exact h hc

theorem forwardSlashes_eq_self {text : List Char} (h : '\\' ∉ text) :
    forwardSlashes text = text := by
  refine (List.map_congr_left fun c hc => ?_).trans (List.map_id text)
  have hne : c ≠ '\\' := by
    rintro rfl
    exact h hc
  exact if_neg hne

end Beatmap.Path
