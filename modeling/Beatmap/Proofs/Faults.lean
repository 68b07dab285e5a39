import Beatmap.Proofs.Fields

/-!
# Faulty lines

`IsFaulty` specifies, for each section and without reference to a chart, the lines that yield a
fault. A line before every header is faulty unless it states the version; a setting needs a colon
and a value of the form required by its key; breaks, timing points, combo colours and hit objects
need their numbers. All other lines are accepted silently: unknown keys, storyboard commands,
Boolean and text values, and the lines of unknown sections.

`fault_isSome_iff` shows that the specification agrees with `Statement.read`, with one lemma for
each kind of section. The four sections of settings are instances of one lemma on tables
(`Lawful.fault_isSome_iff`); their numeric keys are listed in `integerKeys`, `singleKeys` and
`doubleKeys`.
-/

namespace Beatmap

open Beatmap.Text Beatmap.Number

/-! ## Specification of faulty lines -/

/-- The line has the form `key: value`, divided at its first colon, with white space around both
parts. -/
def IsSetting (line : List Char) (key : String) (value : List Char) : Prop :=
  ∃ before after, line = before ++ ':' :: after ∧ ':' ∉ before
    ∧ key = String.ofList (trim before) ∧ value = trim after

/-- The trimmed field of a comma-separated line at an index, counted from zero. -/
def field? (line : List Char) (n : Nat) : Option (List Char) := (pieces ',' line)[n]?.map trim

/-- The keys of a section with 32-bit integer values. -/
def integerKeys : Section → List String
  | .general => ["AudioLeadIn", "PreviewTime", "Countdown", "Mode", "CountdownOffset"]
  | .editor => ["BeatDivisor", "GridSize"]
  | .metadata => ["BeatmapID", "BeatmapSetID"]
  | _ => []

/-- The keys of a section with 32-bit floating-point values. -/
def singleKeys : Section → List String
  | .general => ["StackLeniency"]
  | .difficulty => ["HPDrainRate", "CircleSize", "OverallDifficulty", "ApproachRate"]
  | _ => []

/-- The keys of a section with 64-bit floating-point values. -/
def doubleKeys : Section → List String
  | .editor => ["DistanceSpacing", "TimelineZoom"]
  | .difficulty => ["SliderMultiplier", "SliderTickRate"]
  | _ => []

/-- The value does not have the form required by its key. -/
def IsUnreadable (area : Section) (key : String) (value : List Char) : Prop :=
  (key ∈ integerKeys area ∧ readInt32 value = none)
    ∨ (key ∈ singleKeys area ∧ readFloating .single value = none)
    ∨ (key ∈ doubleKeys area ∧ readFloating .double value = none)
    ∨ (area = .editor ∧ key = "Bookmarks" ∧ value ≠ []
      ∧ ∃ piece ∈ pieces ',' value, readInt32 (trim piece) = none)

/-- The line yields a fault in its section. -/
def IsFaulty (area : Section) (line : List Char) : Prop :=
  match area with
  | .preamble => True
  | .general | .editor | .metadata | .difficulty =>
    ':' ∉ line ∨ ∃ key value, IsSetting line key value ∧ IsUnreadable area key value
  | .events =>
    "2,".toList <+: line
      ∧ ((field? line 1).bind readInt32 = none ∨ (field? line 2).bind readInt32 = none)
  | .timingPoints =>
    (¬∃ offset beatLength, (field? line 0).bind (readFloating .double) = some offset
        ∧ offset.isFinite = true ∧ (field? line 1).bind (readFloating .double) = some beatLength)
      ∨ ∃ n text, 2 ≤ n ∧ n ≤ 7 ∧ field? line n = some text ∧ readInt32 text = none
  | .colours =>
    ':' ∉ line ∨ ∃ key value, IsSetting line key value ∧ "Combo".toList <+: key.toList ∧ value ≠ []
      ∧ ¬∃ red green blue, (pieces ',' value).map (readInt32 <| trim ·)
        = [some red, some green, some blue]
  | .hitObjects => ∃ n, n < 5 ∧ (field? line n).bind readInt32 = none
  | .unknown => False

/-! ## Settings -/

theorem cutFirst_append {sep : Char} {a : List Char} (h : sep ∉ a) (b : List Char) :
    cutFirst sep (a ++ sep :: b) = some (a, b) := by
  have hne : ∀ c ∈ a, (c != sep) = true := by
    intro c hc
    rw [bne_iff_ne]
    intro he
    exact h (he ▸ hc)
  unfold cutFirst
  rw [List.dropWhile_append_of_pos hne, List.takeWhile_append_of_pos hne]
  simp

theorem keyAndValue_eq_none_iff {line : List Char} : keyAndValue? line = none ↔ ':' ∉ line := by
  rw [keyAndValue?, Option.map_eq_none_iff, cutFirst_eq_none_iff]

theorem keyAndValue_eq_some_iff {line : List Char} {key : String} {value : List Char} :
    keyAndValue? line = some (key, value) ↔ IsSetting line key value := by
  rw [keyAndValue?, Option.map_eq_some_iff]
  constructor
  · intro hfound
    obtain ⟨⟨before, after⟩, hcut, hpair⟩ := hfound
    obtain ⟨hline, hnot⟩ := eq_of_cutFirst hcut
    obtain ⟨rfl, rfl⟩ := Prod.mk.inj hpair
    exact ⟨before, after, hline, hnot, rfl, rfl⟩
  · intro hsetting
    obtain ⟨before, after, rfl, hnot, rfl, rfl⟩ := hsetting
    exact ⟨(before, after), cutFirst_append hnot after, rfl⟩

/-- For a line with a key and a value, being faulty reduces to the value. -/
theorem setting_faulty_iff {line : List Char} {key : String} {value : List Char}
    (h : keyAndValue? line = some (key, value)) (P : String → List Char → Prop) :
    (':' ∉ line ∨ ∃ key value, IsSetting line key value ∧ P key value) ↔ P key value := by
  constructor
  · intro hline
    rcases hline with hcolon | ⟨key', value', hs, hp⟩
    · rw [keyAndValue_eq_none_iff.mpr hcolon] at h
      cases h
    · rw [← keyAndValue_eq_some_iff, h, Option.some.injEq, Prod.mk.injEq] at hs
      rw [hs.1, hs.2]
      exact hp
  · intro hp
    exact Or.inr ⟨key, value, keyAndValue_eq_some_iff.mp h, hp⟩

/-- The setting cannot parse the value. -/
def Setting.Rejects {σ : Type} (s : Setting σ) (value : List Char) : Prop :=
  ∃ fault, s.read value = .unreadable fault

theorem Setting.fault_assign_isSome_iff {σ : Type} {s : Setting σ} {value : List Char} :
    (s.assign value).fault.isSome = true ↔ s.Rejects value := by
  unfold assign Rejects
  cases s.read value <;> simp [Reading.accepted, Reading.silent, Reading.refused]

/-- A line of a section of settings yields a fault exactly if it has no colon or the setting of its
key rejects the value. -/
theorem Lawful.fault_isSome_iff {σ : Type} {table : List (Setting σ)} (h : Lawful table)
    (line : List Char) :
    (readSetting table line).fault.isSome = true
      ↔ ':' ∉ line ∨ ∃ key value, IsSetting line key value
          ∧ ∃ s ∈ table, s.key = key ∧ s.Rejects value := by
  unfold readSetting
  cases hkv : keyAndValue? line with
  | none => simp [Reading.refused, keyAndValue_eq_none_iff.mp hkv]
  | some setting =>
    obtain ⟨key, value⟩ := setting
    rw [setting_faulty_iff hkv fun key value => ∃ s ∈ table, s.key = key ∧ s.Rejects value]
    dsimp only
    constructor
    · intro hfault
      cases hfind : table.find? (·.key == key) with
      | none => rw [hfind] at hfault; cases hfault
      | some s =>
        rw [hfind] at hfault
        exact ⟨s, List.mem_of_find?_eq_some hfind, by simpa using List.find?_some hfind,
          Setting.fault_assign_isSome_iff.mp hfault⟩
    · intro hrejected
      obtain ⟨s, hmem, rfl, hrejects⟩ := hrejected
      rw [h.find?_key hmem]
      exact Setting.fault_assign_isSome_iff.mpr hrejects

/-!
The values rejected by each form of setting.
-/

@[simp]
theorem rejects_text {σ : Type} (key : String) (get : σ → String) (set : String → σ → σ)
    (value : List Char) : ¬(Setting.text key get set).Rejects value := by
  intro hrejects
  obtain ⟨fault, h⟩ := hrejects
  cases h

@[simp]
theorem rejects_flag {σ : Type} (key : String) (get : σ → Bool) (set : Bool → σ → σ)
    (value : List Char) : ¬(Setting.flag key get set).Rejects value := by
  intro hrejects
  obtain ⟨fault, h⟩ := hrejects
  cases h

@[simp]
theorem rejects_parsed {σ α : Type} (parse : List Char → Option α) (key : String) (get : σ → α)
    (set : α → σ → σ) (value : List Char) :
    (Setting.parsed parse key get set).Rejects value ↔ parse value = none := by
  unfold Setting.Rejects Setting.parsed
  dsimp only
  cases parse value <;> simp

theorem mapM_eq_none_iff {α β : Type} {f : α → Option β} {l : List α} :
    l.mapM f = none ↔ ∃ a ∈ l, f a = none := by
  induction l with
  | nil => simp
  | cons a l ih =>
    rw [List.mapM_cons]
    cases ha : f a with
    | none => simp [ha]
    | some b =>
      cases hl : l.mapM f with
      | none => simpa [ha] using ih.mp hl
      | some bs => simpa [ha, hl] using ih

theorem mapM_eq_some_iff {α β : Type} {f : α → Option β} {l : List α} {bs : List β} :
    l.mapM f = some bs ↔ l.map f = bs.map some := by
  induction l generalizing bs with
  | nil => cases bs <;> simp
  | cons a l ih =>
    rw [List.mapM_cons, List.map_cons]
    cases bs with
    | nil => cases f a <;> cases l.mapM f <;> simp
    | cons b bs =>
      rw [List.map_cons, List.cons.injEq, ← ih]
      cases f a <;> cases l.mapM f <;> simp

@[simp]
theorem rejects_bookmarks {σ : Type} (key : String) (get : σ → List Int32)
    (set : List Int32 → σ → σ) (value : List Char) :
    (Setting.bookmarks key get set).Rejects value
      ↔ value ≠ [] ∧ ∃ piece ∈ pieces ',' value, readInt32 (trim piece) = none := by
  rw [← mapM_eq_none_iff]
  unfold Setting.Rejects Setting.bookmarks
  dsimp only
  by_cases hv : value = []
  · simp [hv]
  · rw [if_neg (by simpa using hv)]
    cases (pieces ',' value).mapM (readInt32 <| trim ·) <;> simp [hv]

/-!
The values rejected by the keys of each table.
-/

theorem General.rejects_iff {key : String} {value : List Char} :
    (∃ s ∈ settings, s.key = key ∧ s.Rejects value) ↔ IsUnreadable .general key value := by
  simp only [settings, Setting.integer, Setting.single, List.mem_cons, List.not_mem_nil, or_false,
    exists_eq_or_imp, exists_eq_left, Setting.key_text, rejects_text, and_false, Setting.key_parsed,
    rejects_parsed, Setting.key_flag, rejects_flag, false_or, IsUnreadable, integerKeys, singleKeys,
    doubleKeys, false_and, reduceCtorEq]
  grind

theorem Editor.rejects_iff {key : String} {value : List Char} :
    (∃ s ∈ settings, s.key = key ∧ s.Rejects value) ↔ IsUnreadable .editor key value := by
  simp only [settings, Setting.double, Setting.integer, List.mem_cons, List.not_mem_nil, or_false,
    exists_eq_or_imp, exists_eq_left, Setting.key_bookmarks, rejects_bookmarks, Setting.key_parsed,
    rejects_parsed, true_and, IsUnreadable, integerKeys, singleKeys, false_and, doubleKeys,
    false_or]
  grind

theorem Metadata.rejects_iff {key : String} {value : List Char} :
    (∃ s ∈ settings, s.key = key ∧ s.Rejects value) ↔ IsUnreadable .metadata key value := by
  simp only [settings, Setting.integer, List.mem_cons, List.not_mem_nil, or_false, exists_eq_or_imp,
    exists_eq_left, Setting.key_text, rejects_text, and_false, Setting.key_parsed, rejects_parsed,
    false_or, IsUnreadable, integerKeys, singleKeys, doubleKeys, false_and, reduceCtorEq]
  grind

theorem Difficulty.rejects_iff {key : String} {value : List Char} :
    (∃ s ∈ settings, s.key = key ∧ s.Rejects value) ↔ IsUnreadable .difficulty key value := by
  simp only [settings, Setting.single, Setting.double, List.mem_cons, List.not_mem_nil, or_false,
    exists_eq_or_imp, exists_eq_left, Setting.key_parsed, rejects_parsed, IsUnreadable, integerKeys,
    singleKeys, doubleKeys, false_and, false_or, reduceCtorEq]
  grind

/-! ## Records -/

theorem Event.fault_isSome_iff (line : List Char) :
    (Event.read line).fault.isSome = true ↔ IsFaulty .events line := by
  have hcomma : ',' ∉ ['2'] := by decide
  have hstarts : "2,".toList <+: line ↔ ∃ q ps, pieces ',' line = ['2'] :: q :: ps :=
    isPrefix_iff_pieces hcomma
  unfold IsFaulty field?
  rw [hstarts]
  unfold Event.read
  split
  next h => simp [h, Reading.accepted]
  next start stop _ h =>
    cases hstart : readInt32 (trim start) <;> cases hstop : readInt32 (trim stop) <;>
      simp [h, hstart, hstop, Reading.accepted, Reading.refused]
  next h => simp [h, Reading.refused]
  next _ htwo hone =>
    -- Both patterns of a break are excluded, so the line does not have the prefix of one.
    have hnot : ¬∃ q ps, pieces ',' line = ['2'] :: q :: ps := by
      intro hstart
      obtain ⟨q, ps, h⟩ := hstart
      cases ps with
      | nil => exact hone q h
      | cons r ps => exact htwo q r ps h
    simp [hnot, Reading.silent]

theorem Colour.fault_isSome_iff (line : List Char) :
    (Colour.read line).fault.isSome = true ↔ IsFaulty .colours line := by
  unfold Colour.read IsFaulty
  cases hkv : keyAndValue? line with
  | none => simp [Reading.refused, keyAndValue_eq_none_iff.mp hkv]
  | some setting =>
    obtain ⟨key, value⟩ := setting
    rw [setting_faulty_iff hkv fun key value => "Combo".toList <+: key.toList ∧ value ≠ []
      ∧ ¬∃ red green blue, (pieces ',' value).map (readInt32 <| trim ·)
        = [some red, some green, some blue]]
    have hchannels : ∀ red green blue : Int32, (pieces ',' value).map (readInt32 <| trim ·)
          = [some red, some green, some blue]
        ↔ (pieces ',' value).mapM (readInt32 <| trim ·) = some [red, green, blue] := by
      intro red green blue
      rw [mapM_eq_some_iff]
      rfl
    simp only [hchannels, ← List.isPrefixOf_iff_prefix]
    cases hcombo : "Combo".toList.isPrefixOf key.toList with
    | false => simp [Reading.silent]
    | true =>
      by_cases hvalue : value = []
      · simp [hvalue, Reading.silent]
      · rw [if_neg (by simp [hvalue])]
        split
        next red green blue h => simp [h, Reading.accepted]
        next hnot => simpa [hvalue, Reading.refused] using hnot

theorem TimingField.index_all : ∀ n, (h : n < all.length) → all[n].index = n := by decide

theorem TimingField.rejected_ne_none_iff {field : TimingField} {further : List (List Char)} :
    field.rejected? further ≠ none
      ↔ ∃ text, further[field.index]? = some text ∧ readInt32 text = none := by
  unfold rejected? written?
  cases further[field.index]? with
  | none => simp
  | some text => cases h : readInt32 text <;> simp [h]

/-- The optional fields of a timing point yield a fault exactly if one of the six is present and
malformed. -/
theorem TimingPoint.furtherFault_isSome_iff (further : List (List Char)) :
    (furtherFault further).isSome = true
      ↔ ∃ n text, n < 6 ∧ further[n]? = some text ∧ readInt32 text = none := by
  have hsome : (furtherFault further).isSome = true
      ↔ TimingField.all.filterMap (·.rejected? further) ≠ [] := by
    unfold furtherFault
    cases TimingField.all.filterMap (·.rejected? further) <;> simp
  rw [hsome, ne_eq, List.filterMap_eq_nil_iff]
  push Not
  simp only [TimingField.rejected_ne_none_iff]
  constructor
  · intro hrejected
    obtain ⟨field, -, text, htext, hread⟩ := hrejected
    exact ⟨field.index, text, by cases field <;> decide, htext, hread⟩
  · intro hpresent
    obtain ⟨n, text, hn, htext, hread⟩ := hpresent
    have hlt : n < TimingField.all.length := hn
    refine ⟨TimingField.all[n], List.getElem_mem hlt, text, ?_, hread⟩
    rw [TimingField.index_all n hlt]
    exact htext

theorem TimingPoint.fault_isSome_iff (line : List Char) :
    (TimingPoint.read line).fault.isSome = true ↔ IsFaulty .timingPoints line := by
  have hfield : ∀ n, field? line n = ((pieces ',' line).map trim)[n]? :=
    fun n => (List.getElem?_map ..).symm
  unfold IsFaulty TimingPoint.read
  simp only [hfield]
  generalize (pieces ',' line).map trim = fields
  match fields with
  | [] => simp [Reading.refused]
  | [offset] => simp [Reading.refused]
  | offset :: beatLength :: further =>
    -- `further` is indexed from the third field on.
    have hfurther : (∃ n text, 2 ≤ n ∧ n ≤ 7 ∧ (offset :: beatLength :: further)[n]? = some text
          ∧ readInt32 text = none)
        ↔ (furtherFault further).isSome = true := by
      rw [furtherFault_isSome_iff]
      constructor
      · intro hpresent
        obtain ⟨n, text, htwo, hseven, htext, hread⟩ := hpresent
        obtain ⟨m, rfl⟩ := Nat.exists_eq_add_of_le' htwo
        exact ⟨m, text, by omega, by simpa using htext, hread⟩
      · intro hpresent
        obtain ⟨n, text, hn, htext, hread⟩ := hpresent
        exact ⟨n + 2, text, by omega, by omega, by simpa using htext, hread⟩
    rw [hfurther]
    dsimp only [List.getElem?_cons_zero, List.getElem?_cons_succ, Option.bind_some]
    unfold readOffset
    cases hoffset : readFloating .double offset with
    | none => simp [Reading.refused]
    | some x =>
      cases hbeat : readFloating .double beatLength with
      | none => cases hfinite : x.isFinite <;> simp [hfinite, Reading.refused]
      | some y => cases hfinite : x.isFinite <;> simp [hfinite, Reading.refused]

theorem HitObject.readField_eq_ok_iff {field : HitField} {text : List Char} {n : Int32} :
    readField field text = .ok n ↔ readInt32 (trim text) = some n := by
  unfold readField
  cases readInt32 (trim text) <;> simp

theorem bind_eq_ok_iff {ε α β : Type} {x : Except ε α} {f : α → Except ε β} {b : β} :
    x >>= f = .ok b ↔ ∃ a, x = .ok a ∧ f a = .ok b := by
  cases x with
  | error e => simp [bind, Except.bind]
  | ok a => simp [bind, Except.bind]

/-- A hit object is parsed exactly if its five integers are. -/
theorem HitObject.ofFields_eq_ok_iff {x y offset type hitSound : List Char}
    {tail : List (List Char)}
    {object : HitObject} :
    ofFields x y offset type hitSound tail = .ok object
      ↔ readInt32 (trim x) = some object.x ∧ readInt32 (trim y) = some object.y
        ∧ readInt32 (trim offset) = some object.offset ∧ readInt32 (trim type) = some object.type
        ∧ readInt32 (trim hitSound) = some object.hitSound
        ∧ object.extraParams = String.ofList (join ',' tail.dropLast)
        ∧ object.hitSample = String.ofList (tail.getLastD []) := by
  unfold ofFields
  simp only [bind_eq_ok_iff, readField_eq_ok_iff]
  constructor
  · intro hread
    obtain ⟨a, ha, b, hb, c, hc, d, hd, e, he, hobject⟩ := hread
    cases hobject
    exact ⟨ha, hb, hc, hd, he, rfl, rfl⟩
  · intro hfields
    obtain ⟨ha, hb, hc, hd, he, hextra, hsample⟩ := hfields
    refine ⟨_, ha, _, hb, _, hc, _, hd, _, he, ?_⟩
    rw [← hextra, ← hsample]
    rfl

theorem HitObject.fault_isSome_iff (line : List Char) :
    (HitObject.read line).fault.isSome = true ↔ IsFaulty .hitObjects line := by
  unfold IsFaulty field? HitObject.read
  generalize pieces ',' line = fields
  match fields with
  | x :: y :: offset :: type :: hitSound :: tail =>
    dsimp only
    constructor
    · intro hfault
      by_contra hall
      push Not at hall
      -- All five integers are readable: there is an object and no fault.
      obtain ⟨a, ha⟩ := Option.ne_none_iff_exists'.mp (hall 0 (by omega))
      obtain ⟨b, hb⟩ := Option.ne_none_iff_exists'.mp (hall 1 (by omega))
      obtain ⟨c, hc⟩ := Option.ne_none_iff_exists'.mp (hall 2 (by omega))
      obtain ⟨d, hd⟩ := Option.ne_none_iff_exists'.mp (hall 3 (by omega))
      obtain ⟨e, he⟩ := Option.ne_none_iff_exists'.mp (hall 4 (by omega))
      have hobject : ofFields x y offset type hitSound tail = .ok ⟨a, b, c, d, e, _, _⟩ :=
        ofFields_eq_ok_iff.mpr ⟨ha, hb, hc, hd, he, rfl, rfl⟩
      rw [hobject] at hfault
      cases hfault
    · intro hbad
      obtain ⟨n, hn, hread⟩ := hbad
      cases hobject : ofFields x y offset type hitSound tail with
      | error fault => rfl
      | ok object =>
        obtain ⟨ha, hb, hc, hd, he, -, -⟩ := ofFields_eq_ok_iff.mp hobject
        rcases n with _ | _ | _ | _ | _ | n
        · exact absurd (ha.symm.trans hread) (by simp)
        · exact absurd (hb.symm.trans hread) (by simp)
        · exact absurd (hc.symm.trans hread) (by simp)
        · exact absurd (hd.symm.trans hread) (by simp)
        · exact absurd (he.symm.trans hread) (by simp)
        · omega
  -- With fewer than five fields, the first missing one is not readable.
  | [] => exact ⟨fun _ => ⟨0, by omega, rfl⟩, fun _ => rfl⟩
  | [_] => exact ⟨fun _ => ⟨1, by omega, rfl⟩, fun _ => rfl⟩
  | [_, _] => exact ⟨fun _ => ⟨2, by omega, rfl⟩, fun _ => rfl⟩
  | [_, _, _] => exact ⟨fun _ => ⟨3, by omega, rfl⟩, fun _ => rfl⟩
  | [_, _, _, _] => exact ⟨fun _ => ⟨4, by omega, rfl⟩, fun _ => rfl⟩

/-! ## All sections -/

/-- **Faults of a line.** A line of content yields a fault in its section exactly if it is faulty.
-/
theorem fault_isSome_iff (area : Section) (line : List Char) :
    (Statement.read area line).fault.isSome = true ↔ IsFaulty area line := by
  cases area with
  | preamble => exact ⟨fun _ => trivial, fun _ => rfl⟩
  | general =>
    show (readSetting General.settings line).fault.isSome = true ↔ _
    rw [General.lawful.fault_isSome_iff]
    simp only [General.rejects_iff, IsFaulty]
  | editor =>
    show (readSetting Editor.settings line).fault.isSome = true ↔ _
    rw [Editor.lawful.fault_isSome_iff]
    simp only [Editor.rejects_iff, IsFaulty]
  | metadata =>
    show (readSetting Metadata.settings line).fault.isSome = true ↔ _
    rw [Metadata.lawful.fault_isSome_iff]
    simp only [Metadata.rejects_iff, IsFaulty]
  | difficulty =>
    show (readSetting Difficulty.settings line).fault.isSome = true ↔ _
    rw [Difficulty.lawful.fault_isSome_iff]
    simp only [Difficulty.rejects_iff, IsFaulty]
  | events => exact Event.fault_isSome_iff line
  | timingPoints => exact TimingPoint.fault_isSome_iff line
  | colours => exact Colour.fault_isSome_iff line
  | hitObjects => exact HitObject.fault_isSome_iff line
  | unknown => exact ⟨fun h => Bool.false_ne_true h, False.elim⟩

end Beatmap
