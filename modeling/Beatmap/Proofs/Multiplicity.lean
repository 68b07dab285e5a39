import Beatmap.Proofs.Validity
import Mathlib.Data.Finset.Card
import Mathlib.Data.List.Perm.Basic

/-!
# Multiplicity of problems

Charts are checked one after another, and which of several equal charts counts as the duplicate
depends on their order. The number of problems does not: there is one duplicate problem for each
chart beyond the first of its mode and version (`countP_problemsOfCharts`), reordering the charts
permutes the problems (`problemsOfCharts_perm`), and a further member can only remove problems
(`problems_sublist`). `problems_multiplicity` combines the three.

The problems of a chart depend on the earlier charts only through their modes and versions
(`problemsOfCharts_congr`). The induction over permutations uses this after swapping two adjacent
charts.
-/

namespace Beatmap

/-- Whether the problem is a duplicate version. -/
def Problem.isCopy : Problem → Bool
  | duplicateVersion _ _ => true
  | _ => false

/-- Whether a text starts like the message for duplicates. -/
def saysCopy (text : String) : Bool :=
  "Duplicate difficulty version: ".toList.isPrefixOf text.toList

/-- Only the message for duplicates starts in this way. -/
theorem saysCopy_message (problem : Problem) : saysCopy problem.message = problem.isCopy := by
  unfold saysCopy Problem.isCopy Problem.message
  cases problem with
  | duplicateVersion version mode => simp [toString]
  | _ => simp [toString, List.isPrefixOf]

theorem filter_reportIf (p : Problem → Bool) (condition : Bool) (problem : Problem) :
    (reportIf condition problem).filter p = reportIf (condition && p problem) problem := by
  cases condition with
  | false => rfl
  | true => cases h : p problem <;> simp [reportIf, h]

theorem filter_reportIf_eq_nil {p : Problem → Bool} {problem : Problem} (h : p problem = false)
    (condition : Bool) : (reportIf condition problem).filter p = [] := by
  rw [filter_reportIf, h, Bool.and_false]
  rfl

theorem reportIf_sublist {condition condition' : Bool} (problem : Problem)
    (h : condition = true → condition' = true) :
    (reportIf condition problem).Sublist (reportIf condition' problem) := by
  cases condition with
  | false => exact List.nil_sublist _
  | true => rw [h rfl]

namespace Mapset

variable {m m' : Mapset} {earlier earlier' charts charts' : List Chart} {c d : Chart}

/-! ## The problems of one chart -/

/-- The duplicate problem of a chart, if an earlier chart has the same mode and version. -/
def copyProblem (earlier : List Chart) (c : Chart) : List Problem :=
  reportIf (earlier.any (·.identity == c.identity))
    (.duplicateVersion c.metadata.version c.general.mode)

/-- The problems of a chart are those without earlier charts and the duplicate problem. -/
theorem problemsOfChart_eq (m : Mapset) (earlier : List Chart) (c : Chart) :
    m.problemsOfChart earlier c = copyProblem earlier c ++ m.problemsOfChart [] c := by
  simp [problemsOfChart, copyProblem, reportIf]

theorem copyProblem_of_mem (h : c.identity ∈ earlier.map Chart.identity) :
    copyProblem earlier c = [.duplicateVersion c.metadata.version c.general.mode] := by
  have hcopy : earlier.any (·.identity == c.identity) = true := by simpa using h
  rw [copyProblem, hcopy, reportIf, if_pos rfl]

theorem copyProblem_of_not_mem (h : c.identity ∉ earlier.map Chart.identity) :
    copyProblem earlier c = [] := by
  have hcopy : earlier.any (·.identity == c.identity) = false := by simpa using h
  rw [copyProblem, hcopy, reportIf_eq_nil_iff]

theorem copyProblem_congr
    (h : ∀ i, i ∈ earlier.map Chart.identity ↔ i ∈ earlier'.map Chart.identity) (c : Chart) :
    copyProblem earlier c = copyProblem earlier' c := by
  by_cases hc : c.identity ∈ earlier.map Chart.identity
  · rw [copyProblem_of_mem hc, copyProblem_of_mem ((h _).mp hc)]
  · rw [copyProblem_of_not_mem hc, copyProblem_of_not_mem (hc ∘ (h _).mpr)]

/-- Swapping two charts preserves the number of duplicate problems. -/
theorem copyProblem_swap (earlier : List Chart) (c d : Chart) :
    (copyProblem earlier c ++ copyProblem (c :: earlier) d).Perm
      (copyProblem earlier d ++ copyProblem (d :: earlier) c) := by
  by_cases h : c.identity = d.identity
  · -- The later of the two is a copy of the other, and both are called the same.
    have hmode : c.general.mode = d.general.mode := congrArg Prod.fst h
    have hversion : c.metadata.version = d.metadata.version := congrArg Prod.snd h
    have hd : d.identity ∈ (c :: earlier).map Chart.identity := by simp [h]
    have hc : c.identity ∈ (d :: earlier).map Chart.identity := by simp [h]
    have hfirst : copyProblem earlier c = copyProblem earlier d := by
      rw [copyProblem, copyProblem, h, hmode, hversion]
    rw [copyProblem_of_mem hd, copyProblem_of_mem hc, hfirst, hmode, hversion]
  · have happart : ∀ {a b : Chart}, a.identity ≠ b.identity →
        copyProblem (a :: earlier) b = copyProblem earlier b := by
      intro a b hab
      rw [copyProblem, copyProblem, List.any_cons, beq_eq_false_iff_ne.mpr hab, Bool.false_or]
    rw [happart h, happart (Ne.symm h)]
    exact List.perm_append_comm

/-- Swapping two adjacent charts permutes their problems. -/
theorem problemsOfChart_swap (m : Mapset) (earlier : List Chart) (c d : Chart) :
    (m.problemsOfChart earlier c ++ m.problemsOfChart (c :: earlier) d).Perm
      (m.problemsOfChart earlier d ++ m.problemsOfChart (d :: earlier) c) := by
  -- Move the problems of each chart alone behind the duplicate problems.
  have hpair : ∀ a b : Chart,
      (m.problemsOfChart earlier a ++ m.problemsOfChart (a :: earlier) b).Perm
      ((copyProblem earlier a ++ copyProblem (a :: earlier) b)
        ++ (m.problemsOfChart [] a ++ m.problemsOfChart [] b)) := by
    intro a b
    rw [problemsOfChart_eq m earlier, problemsOfChart_eq m (a :: earlier)]
    simp only [List.append_assoc]
    refine List.Perm.append_left _ ?_
    simp only [← List.append_assoc]
    exact List.Perm.append_right _ List.perm_append_comm
  have hown : (m.problemsOfChart [] c ++ m.problemsOfChart [] d).Perm
      (m.problemsOfChart [] d ++ m.problemsOfChart [] c) := List.perm_append_comm
  exact (hpair c d).trans (((copyProblem_swap earlier c d).append hown).trans (hpair d c).symm)

/-! ## Reordering charts -/

theorem problemsOfCharts_congr (m : Mapset)
    (h : ∀ i, i ∈ earlier.map Chart.identity ↔ i ∈ earlier'.map Chart.identity)
    (charts : List Chart) :
    m.problemsOfCharts earlier charts = m.problemsOfCharts earlier' charts := by
  induction charts generalizing earlier earlier' with
  | nil => rfl
  | cons c rest ih =>
    have hnext : ∀ i, i ∈ (c :: earlier).map Chart.identity
        ↔ i ∈ (c :: earlier').map Chart.identity := by
      intro i
      rw [List.map_cons, List.map_cons, List.mem_cons, List.mem_cons, h i]
    rw [problemsOfCharts, problemsOfCharts, problemsOfChart_eq, problemsOfChart_eq m earlier',
      copyProblem_congr h, ih hnext]

theorem problemsOfCharts_perm (m : Mapset) (h : charts.Perm charts') (earlier : List Chart) :
    (m.problemsOfCharts earlier charts).Perm (m.problemsOfCharts earlier charts') := by
  induction h generalizing earlier with
  | nil => exact .refl _
  | cons c _ ih => exact (ih (c :: earlier)).append_left _
  | trans _ _ ih ih' => exact (ih earlier).trans (ih' earlier)
  | swap c d rest =>
    have hrest : m.problemsOfCharts (c :: d :: earlier) rest
        = m.problemsOfCharts (d :: c :: earlier) rest := by
      apply problemsOfCharts_congr
      intro i
      simp only [List.map_cons, List.mem_cons]
      exact or_left_comm
    simp only [problemsOfCharts, ← List.append_assoc]
    rw [hrest]
    exact (problemsOfChart_swap m earlier d c).append_right _

/-! ## Counting problems -/

theorem countP_problemsOfChart (m : Mapset) (earlier : List Chart) (c : Chart) :
    (m.problemsOfChart earlier c).countP Problem.isCopy
      = if c.identity ∈ earlier.map Chart.identity then 1 else 0 := by
  have hown : (m.problemsOfChart [] c).countP Problem.isCopy = 0 := by
    simp [List.countP_eq_length_filter, problemsOfChart, filter_reportIf, Problem.isCopy]
  rw [problemsOfChart_eq, List.countP_append, hown, Nat.add_zero]
  split
  next h => rw [copyProblem_of_mem h]; rfl
  next h => rw [copyProblem_of_not_mem h]; rfl

/-- The number of duplicate problems and the number of distinct modes and versions add up to the
number of charts. -/
theorem countP_problemsOfCharts (m : Mapset) (earlier charts : List Chart) :
    (m.problemsOfCharts earlier charts).countP Problem.isCopy
        + ((earlier.map Chart.identity).toFinset ∪ (charts.map Chart.identity).toFinset).card
      = charts.length + (earlier.map Chart.identity).toFinset.card := by
  induction charts generalizing earlier with
  | nil => simp [problemsOfCharts]
  | cons c rest ih =>
    -- The step moves the key of `c` from the charts to the earlier ones, which preserves the
    -- union.
    have hrest := ih (c :: earlier)
    rw [List.map_cons, List.toFinset_cons] at hrest
    rw [problemsOfCharts, List.countP_append, countP_problemsOfChart, List.map_cons,
      List.toFinset_cons, Finset.union_insert, ← Finset.insert_union, List.length_cons]
    by_cases hc : c.identity ∈ earlier.map Chart.identity
    · rw [if_pos hc]
      rw [Finset.insert_eq_of_mem (List.mem_toFinset.mpr hc)] at hrest ⊢
      omega
    · rw [if_neg hc]
      have hcard := Finset.card_insert_of_notMem (hc ∘ List.mem_toFinset.mp)
      omega

/-- Problems other than those of the whole mapset are problems of its charts. -/
theorem filter_problems (m : Mapset) {p : Problem → Bool}
    (h : ∀ problem ∈ [.missingTitle, .missingArtist, .missingCreator, .noCharts, .noAudio],
      p problem = false) :
    m.problems.filter p = (m.problemsOfCharts [] m.charts).filter p := by
  simp only [List.forall_mem_cons, List.not_mem_nil, false_implies, implies_true, and_true] at h
  obtain ⟨htitle, hartist, hcreator, hcharts, haudio⟩ := h
  unfold problems
  cases m.charts with
  | nil => simp [filter_reportIf_eq_nil, htitle, hartist, hcreator, hcharts, problemsOfCharts]
  | cons c rest => simp [filter_reportIf_eq_nil, htitle, hartist, hcreator, haudio]

/-! ## Additional members -/

theorem hasAudio_mono (h : m.members ⊆ m'.members) {filename : String}
    (hfound : m.hasAudio filename = true) : m'.hasAudio filename = true := by
  obtain ⟨member, hmem, hmember⟩ := hasAudio_iff.mp hfound
  exact hasAudio_iff.mpr ⟨member, h hmem, hmember⟩

theorem problemsOfChart_sublist (h : m.members ⊆ m'.members) (earlier : List Chart) (c : Chart) :
    (m'.problemsOfChart earlier c).Sublist (m.problemsOfChart earlier c) := by
  refine (List.Sublist.refl _).append (reportIf_sublist _ ?_)
  intro hmissing
  rw [Bool.and_eq_true, Bool.not_eq_true'] at hmissing ⊢
  obtain ⟨hname, hnone⟩ := hmissing
  refine ⟨hname, Bool.eq_false_iff.mpr ?_⟩
  intro hfound
  rw [hasAudio_mono h hfound] at hnone
  cases hnone

theorem problemsOfCharts_sublist (h : m.members ⊆ m'.members) (earlier charts : List Chart) :
    (m'.problemsOfCharts earlier charts).Sublist (m.problemsOfCharts earlier charts) := by
  induction charts generalizing earlier with
  | nil => exact .slnil
  | cons c rest ih => exact (problemsOfChart_sublist h earlier c).append (ih (c :: earlier))

/-- The problems of charts depend only on the members of the mapset. -/
theorem problemsOfCharts_eq_of_members (h : m.members = m'.members) (earlier charts : List Chart) :
    m.problemsOfCharts earlier charts = m'.problemsOfCharts earlier charts :=
  (problemsOfCharts_sublist (h ▸ List.Subset.refl _) earlier charts).antisymm
    (problemsOfCharts_sublist (h ▸ List.Subset.refl _) earlier charts)

/-- Adding members removes problems or preserves them. -/
theorem problems_sublist {members : List Member} (h : m.members ⊆ members) :
    (problems { m with members }).Sublist m.problems := by
  have haudio : (membersWithRole { m with members } .audio).isEmpty = true
      → (m.membersWithRole .audio).isEmpty = true := by
    intro hnone
    rw [List.isEmpty_iff, membersWithRole_eq_nil_iff] at hnone ⊢
    rintro ⟨member, hmem, hrole⟩
    exact hnone ⟨member, h hmem, hrole⟩
  refine (List.Sublist.refl _).append ?_
  show (if m.charts.isEmpty = true then _ else _ : List Problem).Sublist _
  split
  · exact .refl _
  · exact (problemsOfCharts_sublist h [] m.charts).append (reportIf_sublist _ haudio)

/-! ## All problems -/

/-- The order of the members does not affect the problems. -/
theorem problems_of_members_perm {members : List Member} (h : members.Perm m.members) :
    problems { m with members } = m.problems := by
  have hfewer := problems_sublist (m := m) h.symm.subset
  have hmore := problems_sublist (m := { m with members }) h.subset
  exact hfewer.antisymm hmore

theorem problems_of_charts_perm {charts : List Chart} (h : charts.Perm m.charts) :
    (problems { m with charts }).Perm m.problems := by
  have hempty : charts.isEmpty = m.charts.isEmpty := h.isEmpty_eq
  have hsame : problemsOfCharts { m with charts } [] charts = m.problemsOfCharts [] charts := by
    apply problemsOfCharts_eq_of_members
    rfl
  refine List.Perm.append_left _ ?_
  show (if charts.isEmpty = true then _ else problemsOfCharts { m with charts } [] charts ++ _
    : List Problem).Perm _
  rw [hempty, hsame]
  split
  · exact .refl _
  · exact (problemsOfCharts_perm m h []).append_right _

theorem countP_problems (m : Mapset) :
    m.problems.countP Problem.isCopy + (m.charts.map Chart.identity).toFinset.card
      = m.charts.length := by
  have hrest := congrArg List.length (filter_problems m (p := Problem.isCopy) (by decide))
  rw [← List.countP_eq_length_filter, ← List.countP_eq_length_filter] at hrest
  have hcount := countP_problemsOfCharts m [] m.charts
  rw [← hrest] at hcount
  simpa using hcount

/-- **Multiplicity of problems.** The number of duplicate messages is the number of charts minus the
number of distinct pairs of mode and version. Permuting the charts and the members of a mapset
permutes its problems. Inserting one more member anywhere leaves a sublist of the problems. -/
theorem problems_multiplicity (m : Mapset) :
    (m.problems.map Problem.message).countP saysCopy
        + (m.charts.map fun c => (c.general.mode, c.metadata.version)).toFinset.card
      = m.charts.length
    ∧ (∀ charts members, charts.Perm m.charts → members.Perm m.members
      → (problems { m with charts, members }).Perm m.problems)
    ∧ ∀ before added after, m.members = before ++ after
      → (problems { m with members := before ++ added :: after }).Sublist m.problems := by
  refine ⟨?_, ?_, ?_⟩
  · have hwording : saysCopy ∘ Problem.message = Problem.isCopy := funext saysCopy_message
    rw [List.countP_map, hwording]
    exact m.countP_problems
  · intro charts members hcharts hmembers
    have hsame : problems { m with charts, members } = problems { m with charts } :=
      problems_of_members_perm (m := { m with charts }) hmembers
    rw [hsame]
    exact problems_of_charts_perm hcharts
  · intro before added after hmembers
    apply problems_sublist
    rw [hmembers]
    exact ((List.sublist_cons_self added after).append_left before).subset

/-- A mapset with two equal charts that name a missing audio file. -/
def withCopy : Mapset where
  charts := [{ general := { audioFilename := "a.mp3" }, metadata := { version := "Hard" } },
    { metadata := { version := "Easy" } },
    { general := { audioFilename := "a.mp3" },
      metadata := { version := "Hard", creator := "Mapper" } }]
  members := [.ofContent "b.png" .empty, .ofContent "b.mp3" .empty]

theorem problems_multiplicity_of_copy :
    (withCopy.problems.map Problem.message).countP saysCopy = 1
      ∧ (problems { withCopy with
          charts := withCopy.charts.reverse
          members := withCopy.members.reverse }).Perm withCopy.problems
      ∧ (problems { withCopy with members := [.ofContent "b.png" .empty, .ofContent "A.MP3" .empty,
          .ofContent "b.mp3" .empty] }).Sublist withCopy.problems := by
  obtain ⟨hcount, hperm, hadded⟩ := problems_multiplicity withCopy
  have hversions :
      (withCopy.charts.map fun c => (c.general.mode, c.metadata.version)).toFinset.card = 2 := by
    decide +kernel
  have hcharts : withCopy.charts.length = 3 := rfl
  rw [hversions, hcharts] at hcount
  refine ⟨Nat.add_right_cancel hcount, ?_, ?_⟩
  · exact hperm _ _ (List.reverse_perm _) (List.reverse_perm _)
  · exact hadded [.ofContent "b.png" .empty] (.ofContent "A.MP3" .empty)
      [.ofContent "b.mp3" .empty] rfl

end Mapset

end Beatmap
