import Beatmap.Json.Number

/-!
# Records in JSON

A record is encoded as an object with one field for each of its names. It is decoded from an object
that contains every name exactly once, in any order and among other fields, or from an array of the
fields in order. `fieldsOf?` brings both forms to a list in the order of the names, from which a
`FieldReader` takes the fields one by one.

`fieldsOf?_record`: decoding an encoded record returns its fields.
-/

namespace Beatmap.Json

/-- The value of the field with a name that occurs exactly once. -/
def theField? (fields : List (Content × Value)) (name : String) : Option Value :=
  match fields.filter (·.1 == some name) with
  | [field] => some field.2
  | _ => none

/-- The fields with the given names, in the order of the names. -/
def Value.fieldsOf? (names : List String) : Value → Option (List Value)
  | .object fields =>
    if fields.all (·.1.isSome) then names.mapM (theField? fields) else none
  | .array items => if items.length = names.length then some items else none
  | _ => none

/-- A decoder of floating-point numbers of every format. -/
abbrev FloatReader := (f : Number.Format) → Value → Option (Number.Floating f)

/-- A decoder that consumes fields from the front of a list. -/
abbrev FieldReader := StateT (List Value) Option

/-- Decodes the next field. -/
def FieldReader.next {α : Type} (read : Value → Option α) : FieldReader α
  | [] => none
  | v :: rest => (read v).map (·, rest)

/-- Decodes a record with the given names. -/
def Value.record? {α : Type} (names : List String) (read : FieldReader α) (v : Value) : Option α :=
  match v.fieldsOf? names with
  | none => none
  | some values =>
    match read values with
    | some (a, []) => some a
    | _ => none

/-- Decodes a list. -/
def Value.list? {α : Type} (read : Value → Option α) : Value → Option (List α)
  | .array items => items.mapM read
  | _ => none

/-- Decodes an array. -/
def Value.array? {α : Type} (read : Value → Option α) (v : Value) : Option (Array α) :=
  (v.list? read).map List.toArray

/-- Decodes a string. -/
def Value.text? : Value → Option String
  | .string content => content
  | _ => none

/-- Decodes a Boolean. -/
def Value.bool? : Value → Option Bool
  | .bool b => some b
  | _ => none

/-- Decodes the name of an enumeration constant: a string, or an object with one field of that name
and value `null`. -/
def Value.alternative? : Value → Option String
  | .string content => content
  | .object [(name, .null)] => name
  | _ => none

/-- Encodes a 32-bit integer. -/
def Value.int32 (n : Int32) : Value := .int n.toInt

/-- Encodes an array. -/
def Value.arrayOf {α : Type} (encode : α → Value) (items : Array α) : Value :=
  .list encode items.toList

namespace FieldReader

/-- Decodes a string field. -/
def nextText : FieldReader String := next Value.text?

/-- Decodes a 32-bit integer field. -/
def nextInt32 : FieldReader Int32 := next Value.int32?

/-- Decodes a Boolean field. -/
def nextBool : FieldReader Bool := next Value.bool?

/-- Decodes a floating-point field. -/
def nextFloating (floats : FloatReader) (f : Number.Format) : FieldReader (Number.Floating f) :=
  next (floats f)

end FieldReader

/-! ## Decoding an encoded record -/

theorem theField?_cons_self {name : String} {v : Value} {fields : List (Content × Value)}
    (h : ∀ f ∈ fields, f.1 ≠ some name) : theField? ((some name, v) :: fields) name = some v := by
  have : fields.filter (·.1 == some name) = [] := by
    rw [List.filter_eq_nil_iff]
    intro f hf
    simpa using h f hf
  simp [theField?, this]

theorem theField?_cons_of_ne {name : String} {f : Content × Value} {fields : List (Content × Value)}
    (h : f.1 ≠ some name) : theField? (f :: fields) name = theField? fields name := by
  have : (f.1 == some name) = false := by simpa using h
  simp [theField?, this]

theorem mapM_theField?_zip {names : List String} {values : List Value}
    (hn : names.Nodup) (hl : names.length = values.length) :
    names.mapM (theField? ((names.map some).zip values)) = some values := by
  induction names generalizing values with
  | nil => cases values <;> simp_all
  | cons name names ih =>
    cases values with
    | nil => simp at hl
    | cons v values =>
      rw [List.nodup_cons] at hn
      have hne : ∀ f ∈ (names.map some).zip values, f.1 ≠ some name := by
        intro f hf he
        have := (List.of_mem_zip (show (f.1, f.2) ∈ _ from hf)).1
        rw [he, List.mem_map] at this
        obtain ⟨n, hn', hs⟩ := this
        exact hn.1 (Option.some.inj hs ▸ hn')
      have hrest : names.mapM (theField? ((some name, v) :: (names.map some).zip values))
          = names.mapM (theField? ((names.map some).zip values)) := by
        clear ih hl
        have key : ∀ ns : List String, name ∉ ns →
            ns.mapM (theField? ((some name, v) :: (names.map some).zip values))
              = ns.mapM (theField? ((names.map some).zip values)) := by
          intro ns hns
          induction ns with
          | nil => rfl
          | cons n ns ih =>
            simp only [List.mem_cons, not_or] at hns
            rw [List.mapM_cons, List.mapM_cons, ih hns.2,
              theField?_cons_of_ne (by simpa using hns.1)]
        exact key names hn.1
      rw [List.map_cons, List.zip_cons_cons, List.mapM_cons, theField?_cons_self hne, hrest,
        ih hn.2 (by simpa using hl)]
      rfl

/-- Decoding an encoded record returns its fields. -/
theorem fieldsOf?_record {names : List String} {values : List Value} (hn : names.Nodup)
    (hl : names.length = values.length) :
    (Value.record names values).fieldsOf? names = some values := by
  have hs : ((names.map some).zip values).all (·.1.isSome) = true := by
    rw [List.all_eq_true]
    intro f hf
    have := (List.of_mem_zip (show (f.1, f.2) ∈ _ from hf)).1
    rw [List.mem_map] at this
    obtain ⟨n, -, hn⟩ := this
    rw [← hn]; rfl
  rw [Value.record, Value.fieldsOf?, if_pos hs, mapM_theField?_zip hn hl]

end Beatmap.Json
