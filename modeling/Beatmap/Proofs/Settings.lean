import Beatmap.Proofs.Content
import Mathlib.Data.List.Pairwise

/-!
# The last readable value of a key

A section of settings is described by a table, and a line stores into at most one field. If the
settings of a table are independent (`Lawful`), the value of a field after some lines is the last
readable value given to its key, and the default if there is none (`Lawful.get_foldl`). Unreadable
values and lines with other keys have no effect.

`SettingsPart` is a section with such a table, and `SettingsPart.get_ofLines` is the statement for a
whole file, in which the section may occur several times.
-/

namespace Beatmap

open Beatmap.Text Beatmap.Number

/-- The trimmed value of a line of the form `key: value`, if it has the given key. -/
def valueFor? (key : String) (line : List Char) : Option (List Char) :=
  match cutFirst ':' line with
  | some (before, after) => if trim before = key.toList then some (trim after) else none
  | none => none

/-- The values of a key in the lines governed by a section, in file order. -/
def valuesOf (area : Section) (lines : List (List Char)) (key : String) : List (List Char) :=
  (governedBy area lines).filterMap fun raw => valueFor? key (trim raw)

/-- The last readable value. -/
def lastOf {α : Type} (read : List Char → Option α) (values : List (List Char)) (default : α) : α :=
  (values.filterMap read).getLastD default

/-- Folding updates that overwrite leaves the last value. -/
theorem foldl_overwrite {α β : Type} (write : α → Option β) (l : List α) (b : β) :
    l.foldl (fun b a => (write a).getD b) b = (l.filterMap write).getLastD b := by
  induction l using List.reverseRecOn with
  | nil => rfl
  | append_singleton l a ih =>
    rw [List.foldl_append, ih, List.filterMap_append, List.foldl_cons, List.foldl_nil]
    cases hw : write a <;> simp [hw, List.getLastD_eq_getLast?]

namespace Setting

variable {σ : Type}

@[simp]
theorem key_text (key : String) (get : σ → String) (set : String → σ → σ) :
    (text key get set).key = key := rfl

@[simp]
theorem key_flag (key : String) (get : σ → Bool) (set : Bool → σ → σ) :
    (flag key get set).key = key := rfl

@[simp]
theorem key_parsed {α : Type} (parse : List Char → Option α) (key : String) (get : σ → α)
    (set : α → σ → σ) : (parsed parse key get set).key = key := rfl

@[simp]
theorem key_bookmarks (key : String) (get : σ → List Int32) (set : List Int32 → σ → σ) :
    (bookmarks key get set).key = key := rfl

/-- The value that the setting reads and stores. -/
def readable (s : Setting σ) (value : List Char) : Option s.Value :=
  match s.read value with
  | .value a => some a
  | .blank => none
  | .unreadable _ => none

/-- Two settings are independent: they have different keys, and neither changes the field of the
other. -/
def Apart (s t : Setting σ) : Prop :=
  s.key ≠ t.key ∧ (∀ a fields, t.get (s.set a fields) = t.get fields)
    ∧ ∀ a fields, s.get (t.set a fields) = s.get fields

instance : Std.Symm (@Apart σ) where
  symm _ _ h := ⟨h.1.symm, h.2.2, h.2.1⟩

/-- The effect of a value on the field of its own key. -/
theorem get_assign {s : Setting σ} (hget : ∀ a fields, s.get (s.set a fields) = a)
    (value : List Char) (fields : σ) :
    s.get ((s.assign value).applyTo fields)
      = (s.readable value).getD (s.get fields) := by
  unfold assign readable
  cases s.read value with
  | value a => exact hget a fields
  | blank => rfl
  | unreadable fault => rfl

/-- A value does not affect the field of an independent setting. -/
theorem get_assign_of_apart {s t : Setting σ} (h : s.Apart t) (value : List Char) (fields : σ) :
    t.get ((s.assign value).applyTo fields) = t.get fields := by
  unfold assign
  cases s.read value with
  | value a => exact h.2.1 a fields
  | blank => rfl
  | unreadable fault => rfl

end Setting

/-- The fields of the table return what was stored in them, and its settings are pairwise
independent. -/
structure Lawful {σ : Type} (table : List (Setting σ)) : Prop where
  get_set : ∀ s ∈ table, ∀ a fields, s.get (s.set a fields) = a
  apart : table.Pairwise Setting.Apart

namespace Lawful

variable {σ : Type} {table : List (Setting σ)}

theorem apart_of_key_ne (h : Lawful table) {s t : Setting σ} (hs : s ∈ table) (ht : t ∈ table)
    (hne : s.key ≠ t.key) : s.Apart t :=
  h.apart.forall hs ht fun he => hne (he ▸ rfl)

/-- Looking up the key of a setting finds the setting. -/
theorem find?_key (h : Lawful table) {s : Setting σ} (hs : s ∈ table) :
    table.find? (·.key == s.key) = some s := by
  have hp := h.apart
  clear h
  induction table with
  | nil => cases hs
  | cons t rest ih =>
    rw [List.pairwise_cons] at hp
    rcases List.mem_cons.mp hs with rfl | hrest
    · exact List.find?_cons_of_pos (beq_self_eq_true _)
    · rw [List.find?_cons_of_neg (by simpa using (hp.1 s hrest).1)]
      exact ih hrest hp.2

/-- The effect of a line on a field. -/
theorem get_readSetting (h : Lawful table) {s : Setting σ} (hs : s ∈ table) (line : List Char)
    (fields : σ) :
    s.get ((readSetting table line).applyTo fields)
      = ((valueFor? s.key line).bind s.readable).getD (s.get fields) := by
  unfold readSetting keyAndValue? valueFor?
  cases hcut : cutFirst ':' line with
  | none => rfl
  | some sides =>
    obtain ⟨before, after⟩ := sides
    dsimp only [Option.map_some]
    by_cases hkey : trim before = s.key.toList
    · rw [if_pos hkey, hkey, String.ofList_toList, h.find?_key hs]
      exact Setting.get_assign (h.get_set s hs) _ _
    · -- Another key: its setting stores into another field, or there is none.
      rw [if_neg hkey]
      have hne : String.ofList (trim before) ≠ s.key := fun he => hkey (by rw [← he]; simp)
      cases hfind : table.find? (·.key == String.ofList (trim before)) with
      | none => rfl
      | some t =>
        have htkey : t.key = String.ofList (trim before) := by simpa using List.find?_some hfind
        have ht := List.mem_of_find?_eq_some hfind
        exact Setting.get_assign_of_apart (h.apart_of_key_ne ht hs (htkey ▸ hne)) _ _

/-- After some lines, a field holds the last readable value of its key, or its previous value if
there is none. -/
theorem get_foldl (h : Lawful table) {s : Setting σ} (hs : s ∈ table) (lines : List (List Char))
    (fields : σ) :
    s.get (lines.foldl (fun f raw => (readSetting table (trim raw)).applyTo f) fields)
      = lastOf s.readable (lines.filterMap fun raw => valueFor? s.key (trim raw))
        (s.get fields) := by
  -- Projected to one field, the fold overwrites that field.
  have hstep : s.get (lines.foldl (fun f raw => (readSetting table (trim raw)).applyTo f) fields)
      = lines.foldl (fun b raw => ((valueFor? s.key (trim raw)).bind s.readable).getD b)
          (s.get fields) := by
    induction lines generalizing fields with
    | nil => rfl
    | cons raw rest ih => rw [List.foldl_cons, List.foldl_cons, ih, h.get_readSetting hs]
  rw [hstep, foldl_overwrite, lastOf, List.filterMap_filterMap]

end Lawful

/-- The fields of a section that are set by the keys of a table. -/
structure SettingsPart (σ : Type) where
  area : Section
  view : area.Content → σ
  table : List (Setting σ)
  lawful : Lawful table
  view_step : ∀ line content,
    view (area.step line content) = (readSetting table line).applyTo (view content)

/-- The fields of a section whose lines are read with a table. -/
def SettingsPart.ofTable {σ : Type} (area : Section) (view : area.Content → σ)
    (table : List (Setting σ)) (wrap : (σ → σ) → Statement) (lawful : Lawful table)
    (hread : ∀ line, Statement.read area line = (readSetting table line).map wrap)
    (hchange : ∀ change content, view (area.apply (wrap change) content) = change (view content)) :
    SettingsPart σ where
  area := area
  view := view
  table := table
  lawful := lawful
  view_step line content := by
    simp only [Section.step, hread, Reading.map, Reading.applyTo]
    cases (readSetting table line).value with
    | none => rfl
    | some change => exact hchange change content

/-- The field of a parsed file holds the last readable value of its key in its section. -/
theorem SettingsPart.get_ofLines {σ : Type} (p : SettingsPart σ) {s : Setting σ} (hs : s ∈ p.table)
    (lines : List (List Char)) :
    s.get (p.view ((Chart.ofLines lines).1.content p.area))
      = lastOf s.readable (valuesOf p.area lines s.key)
          (s.get (p.view (Chart.content {} p.area))) := by
  have hrun : (governedBy p.area lines).foldl
        (fun fields raw => (readSetting p.table (trim raw)).applyTo fields)
        (p.view (Chart.content {} p.area))
      = p.view ((governedBy p.area lines).foldl (fun content raw => p.area.step (trim raw) content)
          (Chart.content {} p.area)) :=
    List.foldl_hom p.view fun content raw => (p.view_step (trim raw) content).symm
  rw [content_ofLines, ← hrun]
  exact p.lawful.get_foldl hs _ _

end Beatmap
