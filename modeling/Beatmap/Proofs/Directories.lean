import Beatmap.Files.Tree
import Mathlib.Data.List.Infix

/-!
# Effects of tree operations

The effects of the tree operations on nodes, for steps that are neither idle nor `..` (`LeadsOn`):

* `createDirectories` preserves all existing nodes and adds directories below its starting point
  (`Grown`). It fails exactly if some prefix of the path is not a directory afterwards
  (`createOnWay_spec`).
* `placeToWrite` succeeds only if all proper prefixes of the path are directories and the path
  itself is not (`placeToWrite_eq_ok`).

If `createDirectories` fails, there is no file at the target either, so the removal of a partial
file has no effect (`removeFile_of_createDirectories`).
-/

namespace Beatmap.Files

/-- A step to a child: neither idle nor `..`. -/
def LeadsOn (step : String) : Prop := step ≠ "" ∧ step ≠ "." ∧ step ≠ ".."

namespace Tree

/-- The second tree extends the first by directories below a route. -/
structure Grown (place : Route) (t t' : Tree) : Prop where
  kept : ∀ route node, t.node? route = some node → t'.node? route = some node
  added : ∀ route, t.node? route = none → t'.node? route ≠ none →
    t'.node? route = some .directory ∧ place <+: route

theorem Grown.refl (place : Route) (t : Tree) : Grown place t t where
  kept _ _ h := h
  added _ h h' := absurd h h'

theorem Grown.trans {place : Route} {t t₁ t₂ : Tree} (h : Grown place t t₁)
    (h₁ : Grown place t₁ t₂) : Grown place t t₂ where
  kept route node hn := h₁.kept route node (h.kept route node hn)
  added route hn hs := by
    cases hm : t₁.node? route with
    | none => exact h₁.added route hm hs
    | some node =>
      -- Added by the first step and kept by the second.
      obtain ⟨hd, hp⟩ := h.added route hn (by rw [hm]; simp)
      exact ⟨h₁.kept route _ hd, hp⟩

theorem Grown.of_prefix {place place' : Route} {t t' : Tree} (hp : place <+: place')
    (h : Grown place' t t') : Grown place t t' where
  kept := h.kept
  added route hn hs := ⟨(h.added route hn hs).1, hp.trans (h.added route hn hs).2⟩

/-- `Grown` trees have the same files. -/
theorem Grown.file_iff {place : Route} {t t' : Tree} (h : Grown place t t') (route : Route)
    (content : ByteArray) :
    t'.node? route = some (.file content) ↔ t.node? route = some (.file content) := by
  constructor
  · intro hf
    cases hn : t.node? route with
    | none =>
      have hd := (h.added route hn (by rw [hf]; simp)).1
      rw [hf] at hd
      cases hd
    | some node => rw [← hf, h.kept route node hn]
  · exact h.kept route _

/-- `Grown` trees agree outside of the route. -/
theorem Grown.node?_eq {place : Route} {t t' : Tree} (h : Grown place t t') {route : Route}
    (hr : ¬place <+: route) : t'.node? route = t.node? route := by
  cases hn : t.node? route with
  | some node => exact h.kept route node hn
  | none =>
    by_contra hs
    exact hr (h.added route hn hs).2

theorem grown_put_directory {t : Tree} {place : Route} {step : String}
    (h : t.node? (place ++ [step]) = none) :
    Grown place t (t.put (place ++ [step]) .directory) where
  kept route node hn := by
    have hne : route ≠ place ++ [step] := by
      rintro rfl
      rw [h] at hn
      cases hn
    rw [node?_put_of_ne t hne, hn]
  added route hn hs := by
    by_cases he : route = place ++ [step]
    · subst he
      exact ⟨node?_put_self t (by simp) _, List.prefix_append ..⟩
    · rw [node?_put_of_ne t he] at hs
      exact absurd hn hs

/-! ## Creating directories -/

/-- Every prefix of the steps, including the empty one and all steps, leads to a directory. -/
def HasWay (t : Tree) (place : Route) (steps : List String) : Prop :=
  ∀ before, before <+: steps → t.node? (place ++ before) = some .directory

theorem hasWay_cons {t : Tree} {place : Route} {step : String} {rest : List String} :
    t.HasWay place (step :: rest)
      ↔ t.node? place = some .directory ∧ t.HasWay (place ++ [step]) rest := by
  constructor
  · intro h
    refine ⟨by simpa using h [] (List.nil_prefix ..), fun before hb => ?_⟩
    have := h (step :: before) (List.cons_prefix_cons.mpr ⟨rfl, hb⟩)
    rwa [← List.singleton_append, ← List.append_assoc] at this
  · rintro ⟨hp, hr⟩ before hb
    rcases List.prefix_cons_iff.mp hb with rfl | ⟨before, rfl, hb⟩
    · simpa using hp
    · have := hr before (List.cons_prefix_cons.mp hb).2
      rwa [List.append_assoc] at this

theorem Grown.hasWay {place place' : Route} {t t' : Tree} {steps : List String}
    (h : Grown place' t t') (hw : t.HasWay place steps) : t'.HasWay place steps :=
  fun before hb => h.kept _ _ (hw before hb)

/-- The effect of `createOnWay`: directories below the starting point are added, and all prefixes of
the path are directories unless it fails. -/
theorem createOnWay_spec {t : Tree} {place : Route} {steps : List String} (begun : Bool)
    (hs : ∀ step ∈ steps, LeadsOn step) (hp : t.node? place = some .directory) :
    Grown place t (t.createOnWay place begun steps).1
      ∧ ((t.createOnWay place begun steps).2 = none
        ↔ (t.createOnWay place begun steps).1.HasWay place steps) := by
  induction steps generalizing t place begun with
  | nil =>
    refine ⟨.refl place t, iff_of_true rfl fun before hb => ?_⟩
    rw [List.prefix_nil.mp hb, List.append_nil]
    exact hp
  | cons step rest ih =>
    obtain ⟨⟨hempty, hdot, hdots⟩, hs⟩ := List.forall_mem_cons.mp hs
    have hdeep : place <+: place ++ [step] := List.prefix_append ..
    have hidle : ¬(step = "" ∨ step = ".") := fun h => h.elim hempty hdot
    simp only [createOnWay, if_neg hidle, if_neg hdots]
    split
    next hn =>
      -- The directory exists.
      obtain ⟨hg, hw⟩ := ih begun hs hn
      have hg := hg.of_prefix hdeep
      exact ⟨hg, hw.trans ⟨fun h => hasWay_cons.mpr ⟨hg.kept _ _ hp, h⟩,
        fun h => (hasWay_cons.mp h).2⟩⟩
    next hn =>
      -- A file is in the way.
      refine ⟨.refl place t, iff_of_false (by simp) fun h => ?_⟩
      have := h [step] (by simp)
      rw [hn] at this
      cases this
    next hn =>
      split
      next =>
        refine ⟨.refl place t, iff_of_false (by simp) fun h => ?_⟩
        have := h [step] (by simp)
        rw [hn] at this
        cases this
      next =>
        have hnew := grown_put_directory hn
        have hself : (t.put (place ++ [step]) .directory).node? (place ++ [step])
            = some .directory := node?_put_self t (by simp) _
        obtain ⟨hg, hw⟩ := ih true hs hself
        have hg := hnew.trans (hg.of_prefix hdeep)
        exact ⟨hg, hw.trans ⟨fun h => hasWay_cons.mpr ⟨hg.kept _ _ hp, h⟩,
          fun h => (hasWay_cons.mp h).2⟩⟩

/-! ## Writing files -/

theorem follow_eq_ok {t : Tree} {place route : Route} {steps : List String}
    (hs : ∀ step ∈ steps, LeadsOn step) (h : t.follow place steps = .ok route) :
    route = place ++ steps
      ∧ ∀ before, before <+: steps → before ≠ steps
        → t.node? (place ++ before) = some .directory := by
  induction steps generalizing place with
  | nil =>
    simp only [follow, Except.ok.injEq] at h
    refine ⟨by simp [h], fun before hb hne => ?_⟩
    exact absurd (List.prefix_nil.mp hb) hne
  | cons step rest ih =>
    obtain ⟨⟨hempty, hdot, hdots⟩, hs⟩ := List.forall_mem_cons.mp hs
    have hidle : ¬(step = "" ∨ step = ".") := fun h => h.elim hempty hdot
    simp only [follow, if_neg hidle, if_neg hdots] at h
    split at h
    next => cases h
    next => cases h
    next hn =>
      split at h
      next => cases h
      next =>
        obtain ⟨rfl, hw⟩ := ih hs h
        refine ⟨by simp, fun before hb hne => ?_⟩
        rcases List.prefix_cons_iff.mp hb with rfl | ⟨before, rfl, hb⟩
        · simpa using hn
        · have := hw before (List.cons_prefix_cons.mp hb).2 fun he => hne (he ▸ rfl)
          rwa [List.append_assoc] at this

/-- The condition under which `placeToWrite` succeeds. -/
theorem placeToWrite_eq_ok_iff {t : Tree} {place route : Route} {steps : List String} :
    t.placeToWrite place steps = .ok route ↔ ∃ before name parent,
      steps.filter (· != "") = before ++ [name] ∧ t.follow place before = .ok parent
        ∧ t.node? parent = some .directory ∧ name ≠ "." ∧ name ≠ ".."
        ∧ steps.getLast? ≠ some "" ∧ isTooLong name = false ∧ route = parent ++ [name]
        ∧ t.node? route ≠ some .directory := by
  simp only [placeToWrite]
  constructor
  · intro h
    split at h
    next => cases h
    next parent hf =>
      split at h
      next => cases h
      next => cases h
      next => cases h
      next name hp hl =>
        split at h
        next => cases h
        next hdots =>
          split at h
          next => cases h
          next hlong =>
            split at h
            next => cases h
            next hn =>
              cases h
              obtain ⟨before, hnames⟩ := List.getLast?_eq_some_iff.mp hl
              rw [hnames, List.dropLast_concat] at hf
              simp only [not_or] at hdots
              exact ⟨before, name, parent, hnames, hf, hp, hdots.1, hdots.2.1, hdots.2.2,
                by simpa using hlong, rfl, hn⟩
  · rintro ⟨before, name, parent, hnames, hf, hp, hdot, hdots, hlast, hlong, rfl, hn⟩
    have hname : ¬(name = "." ∨ name = ".." ∨ steps.getLast? = some "") := by
      simp [hdot, hdots, hlast]
    simp only [hnames, List.dropLast_concat, List.getLast?_concat, hf, hp, if_neg hname, hlong,
      Bool.false_eq_true, if_false]

/-- If a file can be written, all proper prefixes of its path are directories and the path itself is
not. -/
theorem placeToWrite_eq_ok {t : Tree} {place route : Route} {steps : List String}
    (hs : ∀ step ∈ steps, LeadsOn step) (h : t.placeToWrite place steps = .ok route) :
    steps ≠ [] ∧ route = place ++ steps ∧ t.HasWay place steps.dropLast
      ∧ t.node? route ≠ some .directory := by
  obtain ⟨outer, name, parent, hnames, hf, hp, -, -, -, -, rfl, hn⟩ := placeToWrite_eq_ok_iff.mp h
  rw [List.filter_eq_self.mpr fun step hm => by simpa using (hs step hm).1] at hnames
  subst hnames
  obtain ⟨rfl, hw⟩ := follow_eq_ok (fun step hm => hs step (List.mem_append_left _ hm)) hf
  refine ⟨by simp, by simp, fun before hb => ?_, hn⟩
  rw [List.dropLast_concat] at hb
  by_cases he : before = outer
  · rw [he, hp]
  · exact hw before hb he

/-- If the directories of a file cannot be created, there is no file to remove. -/
theorem removeFile_of_createDirectories {t : Tree} {place : Route} {steps : List String}
    (hs : ∀ step ∈ steps, LeadsOn step) (hp : t.node? place = some .directory)
    (h : (t.createDirectories place steps.dropLast).2 ≠ none) :
    (t.createDirectories place steps.dropLast).1.removeFile place steps
      = (t.createDirectories place steps.dropLast).1 := by
  have hspec := createOnWay_spec false (fun step hm => hs step (List.dropLast_subset _ hm)) hp
  unfold removeFile
  split
  next route hr =>
    obtain ⟨-, -, hw, -⟩ := placeToWrite_eq_ok hs hr
    exact absurd (hspec.2.mpr hw) h
  next => rfl

end Tree

end Beatmap.Files
