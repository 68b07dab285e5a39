import Beatmap.Proofs.Written
import Beatmap.Store.Mapset

/-!
# Decoding encoded records

Decoding a record consumes its values one by one, in the order in which they were encoded. `Reads`
states the result: the record, if all of its floating-point numbers are finite, and failure
otherwise. It is proved for each record along its fields (`Reads.plain`, `Reads.quantity`,
`Reads.bind`).

The decoder of floating-point numbers is a parameter, which is assumed to recover the numbers of the
record from their encoding (`FloatReader.Recovers`). A correctly rounding decoder recovers every
number (`FloatReader.rounding_recovers`). `Value.floating?` rounds twice and does not recover all of
them, which is why the assumption is restricted to the numbers of the record.
-/

namespace Beatmap

open Number (Single Double)
open Json (Value FloatReader FieldReader Literal)
open Json.Value
open Json.FieldReader

/-- A floating-point number of a record. -/
inductive Quantity where
  | single (x : Single)
  | double (x : Double)

/-- Whether the number is neither infinite nor NaN. -/
def Quantity.isFinite : Quantity → Bool
  | single x => x.isFinite
  | double x => x.isFinite

namespace Json

/-- The decoder returns the number for the encoding of a finite number, and fails otherwise. -/
def FloatReader.Recovers (floats : FloatReader) : Quantity → Prop
  | .single x => floats .single (.single x) = if x.isFinite then some x else none
  | .double x => floats .double (.double x) = if x.isFinite then some x else none

instance (floats : FloatReader) : DecidablePred floats.Recovers
  | .single _ => inferInstanceAs (Decidable (_ = _))
  | .double _ => inferInstanceAs (Decidable (_ = _))

/-- The correctly rounding decoder. -/
def FloatReader.rounding : FloatReader
  | f, .number l =>
    let x := l.decimal.toFloating f
    if x.isFinite then some x else none
  | _, _ => none

theorem FloatReader.rounding_floating {layout : Layout} {f : Number.Format}
    (h : 3 * layout.greatest < (2 ^ (f.exponentBits - 1) : Nat)) (x : Number.Floating f) :
    rounding f (.floating layout x) = if x.isFinite then some x else none := by
  unfold Value.floating
  split
  next hx =>
    simp only [rounding, layout.toFloating_literal h, Number.toFloating_shortest hx, hx, if_true]
  next => rfl

/-- The correctly rounding decoder recovers every number. -/
theorem FloatReader.rounding_recovers (q : Quantity) : rounding.Recovers q := by
  cases q with
  | single x => exact rounding_floating (by decide) x
  | double x => exact rounding_floating (by decide) x

/-! ## Values -/

theorem intWithin?_int {n least greatest : Int} (h : least ≤ n ∧ n ≤ greatest) :
    (Value.int n).intWithin? least greatest = some n := by
  show (Literal.ofInt n).int?.filter _ = some n
  rw [Literal.int?_ofInt, Option.filter_some, if_pos (by simpa using h)]

theorem int32?_int32 (n : Int32) : (Value.int32 n).int32? = some n := by
  have hlow := n.le_toInt
  have hhigh := n.toInt_lt
  rw [int32?, int32, intWithin?_int (by omega), Option.map_some, Int32.ofInt_toInt]

theorem uint32?_int (n : UInt32) : (Value.int n.toNat).uint32? = some n := by
  have hhigh := n.toNat_lt
  rw [uint32?, intWithin?_int (by omega), Option.map_some, Int.toNat_natCast]
  simp

theorem uint64?_uint64 (n : UInt64) : (uint64 n).uint64? = some n := by
  have hhigh := n.toNat_lt
  rw [uint64?, uint64, intWithin?_int (by omega), Option.map_some, Int.toNat_natCast]
  simp

theorem list?_list {α β : Type} {read : Value → Option α} {encode : β → Value} {f : β → α}
    {quantities : β → List Quantity} {items : List β}
    (h : ∀ b ∈ items, read (encode b)
      = if (quantities b).all Quantity.isFinite then some (f b) else none) :
    (Value.list encode items).list? read
      = if (items.flatMap quantities).all Quantity.isFinite then some (items.map f) else none := by
  show (items.map encode).mapM read = _
  induction items with
  | nil => rfl
  | cons b rest ih =>
    rw [List.map_cons, List.mapM_cons, h b (List.mem_cons_self ..),
      ih fun c hc => h c (List.mem_cons_of_mem _ hc), List.flatMap_cons, List.all_append]
    cases (quantities b).all Quantity.isFinite with
    | false => rfl
    | true =>
      cases (rest.flatMap quantities).all Quantity.isFinite with
      | false => rfl
      | true => rfl

theorem array?_arrayOf {α : Type} {read : Value → Option α} {encode : α → Value}
    {quantities : α → List Quantity} {items : Array α}
    (h : ∀ a ∈ items, read (encode a)
      = if (quantities a).all Quantity.isFinite then some a else none) :
    (Value.arrayOf encode items).array? read
      = if (items.toList.flatMap quantities).all Quantity.isFinite then some items else none := by
  rw [array?, arrayOf, list?_list fun a ha => h a (Array.mem_toList_iff.mp ha)]
  cases (items.toList.flatMap quantities).all Quantity.isFinite with
  | false => rfl
  | true => simp

/-! ## Fields -/

/-- The values decode to `a` if all its floating-point numbers are finite, and do not decode
otherwise. -/
def FieldReader.Reads {α : Type} (read : FieldReader α) (values : List Value) (a : α)
    (quantities : List Quantity) : Prop :=
  ∀ rest, read (values ++ rest)
    = if quantities.all Quantity.isFinite then some (a, rest) else none

namespace FieldReader.Reads

variable {α β : Type} {a : α} {b : β} {values values' : List Value}
  {quantities quantities' : List Quantity} {next' : α → FieldReader β}

theorem pure (a : α) : Reads (Pure.pure a) [] a [] := fun _ => rfl

theorem bind {read : FieldReader α} (h : read.Reads values a quantities)
    (hn : (next' a).Reads values' b quantities') :
    (read >>= next').Reads (values ++ values') b (quantities ++ quantities') := by
  intro rest
  show ((read (values ++ values' ++ rest)).bind fun p => next' p.1 p.2) = _
  rw [List.append_assoc, h, List.all_append]
  cases quantities.all Quantity.isFinite with
  | false => rfl
  | true =>
    rw [if_pos rfl, Option.bind_some, hn]
    rfl

/-- Fields without floating-point numbers. -/
theorem bind_plain {read : FieldReader α} (h : read.Reads values a [])
    (hn : (next' a).Reads values' b quantities) :
    (read >>= next').Reads (values ++ values') b quantities := bind h hn

/-- The last fields of a record. -/
theorem last {read : FieldReader α} (h : read.Reads values a quantities) (f : α → β) :
    (read >>= fun a => Pure.pure (f a)).Reads values (f a) quantities := by
  have hread : (read >>= fun a => Pure.pure (f a)).Reads (values ++ []) (f a) (quantities ++ []) :=
    bind h (pure (f a))
  rwa [List.append_nil, List.append_nil] at hread

/-- A field that may contain floating-point numbers. -/
theorem part {read : Value → Option α} {v : Value}
    (h : read v = if quantities.all Quantity.isFinite then some a else none)
    (hn : (next' a).Reads values b quantities') :
    (FieldReader.next read >>= next').Reads (v :: values) b (quantities ++ quantities') := by
  have hread : (FieldReader.next read).Reads [v] a quantities := by
    intro rest
    show (read v).map (·, rest) = _
    rw [h]
    cases quantities.all Quantity.isFinite with
    | false => rfl
    | true => rfl
  exact bind hread hn

/-- A field without floating-point numbers. -/
theorem plain {read : Value → Option α} {v : Value} (h : read v = some a)
    (hn : (next' a).Reads values b quantities) :
    (FieldReader.next read >>= next').Reads (v :: values) b quantities :=
  part (show read v = if ([] : List Quantity).all Quantity.isFinite then some a else none from h) hn

/-- A field that is a floating-point number. -/
theorem quantity {q : Quantity} {read : Value → Option α} {v : Value}
    (h : read v = if q.isFinite then some a else none) (hn : (next' a).Reads values b quantities) :
    (FieldReader.next read >>= next').Reads (v :: values) b (q :: quantities) := by
  have hread : read v = if [q].all Quantity.isFinite then some a else none := by
    rwa [List.all_cons, List.all_nil, Bool.and_true]
  exact part hread hn

end FieldReader.Reads

/-- Decoding a record reduces to decoding its fields. -/
theorem record?_record {α : Type} {names : List String} {read : FieldReader α} {values : List Value}
    {a : α} {quantities : List Quantity} (h : read.Reads values a quantities) (hn : names.Nodup)
    (hl : names.length = values.length) :
    (Value.record names values).record? names read
      = if quantities.all Quantity.isFinite then some a else none := by
  have hread := h []
  rw [List.append_nil] at hread
  rw [record?, fieldsOf?_record hn hl]
  dsimp only
  rw [hread]
  cases quantities.all Quantity.isFinite with
  | false => rfl
  | true => rfl

theorem record?_plain {α : Type} {names : List String} {read : FieldReader α} {values : List Value}
    {a : α} (h : read.Reads values a []) (hn : names.Nodup) (hl : names.length = values.length) :
    (Value.record names values).record? names read = some a := record?_record h hn hl

theorem list?_plain {α β : Type} {read : Value → Option α} {encode : β → Value} {f : β → α}
    {items : List β} (h : ∀ b, read (encode b) = some (f b)) :
    (Value.list encode items).list? read = some (items.map f) := by
  have hnone : ∀ b ∈ items, read (encode b)
      = if ([] : List Quantity).all Quantity.isFinite then some (f b) else none := fun b _ => h b
  have hread := list?_list hnone
  rwa [List.flatMap_eq_nil_iff.mpr fun _ _ => rfl] at hread

theorem array?_plain {α : Type} {read : Value → Option α} {encode : α → Value} {items : Array α}
    (h : ∀ a, read (encode a) = some a) :
    (Value.arrayOf encode items).array? read = some items := by
  have hnone : ∀ a ∈ items, read (encode a)
      = if ([] : List Quantity).all Quantity.isFinite then some a else none := fun a _ => h a
  have hread := array?_arrayOf hnone
  rwa [List.flatMap_eq_nil_iff.mpr fun _ _ => rfl] at hread

end Json

open Json (record?_record record?_plain int32?_int32 uint32?_int uint64?_uint64)

/-! ## Charts -/

variable {floats : FloatReader}

theorem HitObject.ofJson?_toJson (o : HitObject) : ofJson? o.toJson = some o := by
  refine record?_plain ?_ (by decide) rfl
  exact .plain (int32?_int32 _) <| .plain (int32?_int32 _) <| .plain (int32?_int32 _) <|
    .plain (int32?_int32 _) <| .plain (int32?_int32 _) <| .plain rfl <| .plain rfl <| .pure _

theorem BreakPeriod.ofJson?_toJson (b : BreakPeriod) : ofJson? b.toJson = some b := by
  refine record?_plain ?_ (by decide) rfl
  exact .plain (int32?_int32 _) <| .plain (int32?_int32 _) <| .pure _

theorem Colour.ofJson?_toJson (c : Colour) : ofJson? c.toJson = some c := by
  refine record?_plain ?_ (by decide) rfl
  exact .plain (int32?_int32 _) <| .plain (int32?_int32 _) <| .plain (int32?_int32 _) <| .pure _

/-- The floating-point numbers of a timing point, in the order of its fields. -/
def TimingPoint.quantities (p : TimingPoint) : List Quantity := [.double p.beatLength]

theorem TimingPoint.ofJson?_toJson {p : TimingPoint} (h : ∀ q ∈ p.quantities, floats.Recovers q) :
    ofJson? floats p.toJson = if p.quantities.all Quantity.isFinite then some p else none := by
  refine record?_record ?_ (by decide) rfl
  exact .plain (int32?_int32 _) <| .quantity (h _ (List.mem_cons_self ..)) <|
    .plain (int32?_int32 _) <| .plain (int32?_int32 _) <| .plain (int32?_int32 _) <|
    .plain (int32?_int32 _) <| .plain rfl <| .plain (int32?_int32 _) <| .pure _

def General.quantities (g : General) : List Quantity := [.single g.stackLeniency]

theorem General.reads {g : General} (h : ∀ q ∈ g.quantities, floats.Recovers q) :
    (readFields floats).Reads g.fieldValues g g.quantities :=
  .plain rfl <| .plain (int32?_int32 _) <| .plain rfl <| .plain (int32?_int32 _) <|
    .plain (int32?_int32 _) <| .plain rfl <| .quantity (h _ (List.mem_cons_self ..)) <|
    .plain (int32?_int32 _) <| .plain rfl <| .plain rfl <| .plain rfl <| .plain rfl <| .plain rfl <|
    .plain rfl <| .plain rfl <| .plain (int32?_int32 _) <| .plain rfl <| .plain rfl <|
    .plain rfl <| .pure _

def Editor.quantities (e : Editor) : List Quantity :=
  [.double e.distanceSpacing, .double e.timelineZoom]

theorem Editor.reads {e : Editor} (h : ∀ q ∈ e.quantities, floats.Recovers q) :
    (readFields floats).Reads e.fieldValues e e.quantities := by
  have hbookmarks : (Value.list int32 e.bookmarks).list? (·.int32?) = some e.bookmarks := by
    rw [Json.list?_plain (f := id) int32?_int32, List.map_id]
  simp only [quantities, List.forall_mem_cons] at h
  obtain ⟨hspacing, hzoom, -⟩ := h
  exact .plain hbookmarks <| .quantity hspacing <| .plain (int32?_int32 _) <|
    .plain (int32?_int32 _) <| .quantity hzoom <| .pure _

theorem Metadata.reads (m : Metadata) : readFields.Reads m.fieldValues m [] :=
  .plain rfl <| .plain rfl <| .plain rfl <| .plain rfl <| .plain rfl <| .plain rfl <| .plain rfl <|
    .plain rfl <| .plain (int32?_int32 _) <| .plain (int32?_int32 _) <| .pure _

def Difficulty.quantities (d : Difficulty) : List Quantity :=
  [.single d.hpDrainRate, .single d.circleSize, .single d.overallDifficulty, .single d.approachRate,
    .double d.sliderMultiplier, .double d.sliderTickRate]

theorem Difficulty.reads {d : Difficulty} (h : ∀ q ∈ d.quantities, floats.Recovers q) :
    (readFields floats).Reads d.fieldValues d d.quantities := by
  simp only [quantities, List.forall_mem_cons] at h
  obtain ⟨hdrain, hsize, hoverall, happroach, hmultiplier, htick, -⟩ := h
  exact .quantity hdrain <| .quantity hsize <| .quantity hoverall <| .quantity happroach <|
    .quantity hmultiplier <| .quantity htick <| .pure _

theorem Events.reads (e : Events) : readFields.Reads e.fieldValues e [] :=
  .plain rfl <| .plain (Json.array?_plain BreakPeriod.ofJson?_toJson) <| .pure _

def Metrics.quantities (m : Metrics) : List Quantity := [.double m.bpm]

theorem Metrics.reads {m : Metrics} (h : ∀ q ∈ m.quantities, floats.Recovers q) :
    (readFields floats).Reads m.fieldValues m m.quantities :=
  .plain (int32?_int32 _) <| .plain (int32?_int32 _) <| .plain (uint32?_int _) <|
    .quantity (h _ (List.mem_cons_self ..)) <| .pure _

/-- The floating-point numbers of a chart, in the order of its fields. -/
def Chart.quantities (c : Chart) : List Quantity :=
  c.general.quantities ++ c.editor.quantities ++ c.difficulty.quantities
    ++ c.timingPoints.toList.flatMap TimingPoint.quantities ++ c.metrics.quantities

theorem Chart.reads {c : Chart} (h : ∀ q ∈ c.quantities, floats.Recovers q) :
    (readFields floats).Reads c.fieldValues c c.quantities := by
  simp only [quantities, List.forall_mem_append] at h
  obtain ⟨⟨⟨⟨hgeneral, heditor⟩, hdifficulty⟩, hpoints⟩, hmetrics⟩ := h
  have hpoint : ∀ p ∈ c.timingPoints, TimingPoint.ofJson? floats p.toJson
      = if p.quantities.all Quantity.isFinite then some p else none := by
    intro p hp
    refine TimingPoint.ofJson?_toJson fun q hq => hpoints q ?_
    exact List.mem_flatMap.mpr ⟨p, Array.mem_toList_iff.mpr hp, hq⟩
  simp only [fieldValues, quantities, List.append_assoc, List.cons_append, List.nil_append]
  exact .plain (int32?_int32 _) <| .plain rfl <| .plain rfl <| .bind (General.reads hgeneral) <|
    .bind (Editor.reads heditor) <| .bind_plain (Metadata.reads _) <|
    .bind (Difficulty.reads hdifficulty) <| .bind_plain (Events.reads _) <|
    .part (Json.array?_arrayOf hpoint) <| .plain (Json.array?_plain Colour.ofJson?_toJson) <|
    .plain (Json.array?_plain HitObject.ofJson?_toJson) <| .last (Metrics.reads hmetrics) _

theorem Chart.ofJson?_toJson {c : Chart} (h : ∀ q ∈ c.quantities, floats.Recovers q) :
    ofJson? floats c.toJson = if c.quantities.all Quantity.isFinite then some c else none :=
  record?_record (Chart.reads h) (by decide +kernel) rfl

/-! ## Mapsets -/

/-- The member without its content. -/
def Member.withoutContent (m : Member) : Member := { m with content := .empty }

theorem Role.ofJson?_toJson (r : Role) : ofJson? r.toJson = some r := ofName?_name r

theorem Member.ofJson?_toJson (m : Member) : ofJson? m.toJson = some m.withoutContent := by
  refine record?_plain ?_ (by decide) rfl
  exact .plain rfl <| .plain (uint64?_uint64 _) <| .plain rfl <| .plain (Role.ofJson?_toJson _) <|
    .pure _

/-- The mapset without the contents of its members. -/
def Mapset.withoutContents (m : Mapset) : Mapset :=
  { m with members := m.members.map Member.withoutContent }

/-- The floating-point numbers of a mapset. -/
def Mapset.quantities (m : Mapset) : List Quantity := m.charts.flatMap Chart.quantities

theorem Mapset.ofJson?_toJson {m : Mapset} (h : ∀ q ∈ m.quantities, floats.Recovers q) :
    ofJson? floats m.toJson
      = if m.quantities.all Quantity.isFinite then some m.withoutContents else none := by
  have hcharts : (Value.list Chart.toJson m.charts).list? (Chart.ofJson? floats)
      = if m.quantities.all Quantity.isFinite then some (m.charts.map id) else none := by
    refine Json.list?_list fun c hc => Chart.ofJson?_toJson fun q hq => h q ?_
    exact List.mem_flatMap.mpr ⟨c, hc, hq⟩
  have hmembers : (Value.list Member.toJson m.members).list? Member.ofJson?
      = some (m.members.map Member.withoutContent) := Json.list?_plain Member.ofJson?_toJson
  rw [List.map_id] at hcharts
  refine record?_record ?_ (by decide) rfl
  rw [← List.append_nil m.quantities]
  exact .plain rfl <| .plain rfl <| .plain rfl <| .plain rfl <| .plain rfl <| .plain rfl <|
    .plain rfl <| .plain rfl <| .plain (uint64?_uint64 _) <| .part hcharts <| .plain hmembers <|
    .pure _

end Beatmap
