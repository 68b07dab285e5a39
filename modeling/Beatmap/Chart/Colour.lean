import Beatmap.Chart.Setting

/-!
# Combo colours

A key of the section `[Colours]` that starts with `Combo` has three comma-separated integers as its
value. The integers are not restricted to the range 0 to 255.
-/

namespace Beatmap

open Beatmap.Text Beatmap.Number

/-- A colour by its three channels. -/
structure Colour where
  red : Int32
  green : Int32
  blue : Int32
  deriving DecidableEq, Repr, Inhabited

/-- Parses a line of the section. Lines with other keys, and lines without a separator, are skipped.
-/
def Colour.read (line : List Char) : Reading Colour :=
  match keyAndValue? line with
  | none => .refused (.missingSeparator (String.ofList line))
  | some (key, value) =>
    if !("Combo".toList.isPrefixOf key.toList) || value.isEmpty then .silent
    else match (pieces ',' value).mapM (readInt32 <| trim ·) with
      | some [red, green, blue] => .accepted ⟨red, green, blue⟩
      | _ => .refused (.colourNotTriple key (String.ofList value))

end Beatmap
