import Beatmap.Chart.Fault
import Beatmap.Number.Integer
import Beatmap.Text.Pieces

/-!
# Hit objects

A line of the section `[HitObjects]` starts with five integers. The text after the fifth comma is
kept verbatim: the part after its last comma is the hit sample, and the part before that the
parameters of the object.
-/

namespace Beatmap

open Beatmap.Text Beatmap.Number

/-- A hit object. -/
structure HitObject where
  x : Int32
  y : Int32
  /-- The offset in milliseconds. -/
  offset : Int32
  /-- The bit field of the kind and the combo flags. -/
  type : Int32
  hitSound : Int32
  /-- The parameters after the fifth comma, verbatim. -/
  extraParams : String
  hitSample : String
  deriving DecidableEq, Repr, Inhabited

/-- The kinds of hit object. -/
inductive HitObjectKind where
  | circle
  | slider
  | spinner
  | hold
  | unknown
  deriving DecidableEq, Repr

namespace HitObject

/-- Whether bit `n` of the type is set. -/
def hasBit (o : HitObject) (n : Int32) : Bool := o.type &&& (1 <<< n) != 0

/-- The kind of the object, determined by the first kind bit that is set. -/
def kind (o : HitObject) : HitObjectKind :=
  if o.hasBit 0 then .circle
  else if o.hasBit 1 then .slider
  else if o.hasBit 3 then .spinner
  else if o.hasBit 7 then .hold
  else .unknown

/-- Whether the object starts a new combo. -/
def newCombo (o : HitObject) : Bool := o.hasBit 2

/-- The number of combo colours that are skipped at a new combo. -/
def comboOffset (o : HitObject) : Int32 := (o.type >>> 4) &&& 7

/-- Whether the object is a circle, a slider or a spinner, which count one combo each. -/
def countsTowardsCombo (o : HitObject) : Bool := o.type &&& 11 != 0

/-- Parses one of the five integers. -/
def readField (field : HitField) (text : List Char) : Except Fault Int32 :=
  match readInt32 (trim text) with
  | some n => .ok n
  | none => .error (.unreadableHitField field (String.ofList text))

/-- The object of the pieces of a line, given the pieces after the fifth comma. -/
def ofFields (x y offset type hitSound : List Char) (tail : List (List Char)) :
    Except Fault HitObject := do
  return {
    x := ← readField .x x
    y := ← readField .y y
    offset := ← readField .offset offset
    type := ← readField .kind type
    hitSound := ← readField .hitSound hitSound
    extraParams := String.ofList (join ',' tail.dropLast)
    hitSample := String.ofList (tail.getLastD []) }

/-- Parses a line of the section. -/
def read (line : List Char) : Reading HitObject :=
  match pieces ',' line with
  | x :: y :: offset :: type :: hitSound :: tail =>
    .ofExcept (ofFields x y offset type hitSound tail)
  | _ => .refused (.incompleteHitObject (String.ofList line))

end HitObject

end Beatmap
