import Beatmap.Proofs.Extensions
import Beatmap.Proofs.Multiplicity
import Beatmap.Proofs.Outcome

/-!
# Audio files of charts

The check for missing audio searches the audio members of a mapset for the path that a chart names,
whereas `findMember?` returns the first member of any role that matches the path. The two agree,
because a member that matches a path has the role of the path (`role_of_matchesPath`): audio is
reported missing exactly if the first matching member is not an audio file (`audioProblems_exact`).
-/

namespace Beatmap

/-- Whether the problem is a missing audio file. -/
def Problem.isMissingAudio : Problem → Bool
  | audioNotFound _ => true
  | _ => false

/-- Whether a text starts like the message for missing audio. -/
def saysNotFound (text : String) : Bool := "Audio file not found: ".toList.isPrefixOf text.toList

/-- Only the message for missing audio starts in this way. -/
theorem saysNotFound_message (problem : Problem) :
    saysNotFound problem.message = problem.isMissingAudio := by
  unfold saysNotFound Problem.isMissingAudio Problem.message
  cases problem with
  | audioNotFound filename => simp [toString]
  | _ => simp [toString, List.isPrefixOf]

/-- Paths with the same normal form have the same role. -/
theorem Role.ofPath_of_comparable {path other : List Char}
    (h : Path.comparable path = Path.comparable other) : ofPath path = ofPath other := by
  rw [← ofPath_comparable path, h, ofPath_comparable]

/-- A member that matches a path has the role of the path. -/
theorem Member.role_of_matchesPath {member : Member} {path : String} (hsound : member.IsSound)
    (h : member.matchesPath path = true) : member.role = Role.ofPath path.toList := by
  rw [hsound.role]
  exact Role.ofPath_of_comparable (eq_of_beq h)

namespace Mapset

/-- Whether the first member that matches a path is an audio file. -/
def findsAudio (m : Mapset) (path : String) : Bool := (m.findMember? path).any (·.role == .audio)

theorem of_findMember?_eq_some {m : Mapset} {path : String} {found : Member}
    (h : m.findMember? path = some found) : found ∈ m.members ∧ found.matchesPath path = true :=
  ⟨List.mem_of_find?_eq_some h,
    List.find?_some (p := fun member : Member => member.matchesPath path) h⟩

theorem findsAudio_iff {m : Mapset} {path : String} :
    m.findsAudio path = true
      ↔ ∃ member, m.findMember? path = some member ∧ member.role = .audio := by
  rw [findsAudio, Option.any_eq_true]
  simp only [beq_iff_eq]

/-- An audio member matches a path exactly if the first matching member is an audio file. -/
theorem hasAudio_eq_findsAudio {m : Mapset} (hsound : ∀ member ∈ m.members, member.IsSound)
    (path : String) : m.hasAudio path = m.findsAudio path := by
  rw [Bool.eq_iff_iff, findsAudio_iff, hasAudio, List.any_eq_true]
  constructor
  · rintro ⟨member, hmember, hmatches⟩
    obtain ⟨hmem, hrole⟩ := List.mem_filter.mp hmember
    cases hfind : m.findMember? path with
    | none => exact absurd hmatches (List.find?_eq_none.mp hfind member hmem)
    | some found =>
      -- The first matching member may be another one, but both have the role of the path.
      obtain ⟨hfound, hfirst⟩ := of_findMember?_eq_some hfind
      have haudio : Role.ofPath path.toList = .audio :=
        (Member.role_of_matchesPath (hsound member hmem) hmatches).symm.trans (eq_of_beq hrole)
      exact ⟨found, rfl, (Member.role_of_matchesPath (hsound found hfound) hfirst).trans haudio⟩
  · rintro ⟨found, hfind, hrole⟩
    obtain ⟨hfound, hfirst⟩ := of_findMember?_eq_some hfind
    exact ⟨found, List.mem_filter.mpr ⟨hfound, beq_iff_eq.mpr hrole⟩, hfirst⟩

/-- The missing audio problems of a list of charts, one chart after another. -/
theorem filter_problemsOfCharts (m : Mapset) (earlier charts : List Chart) :
    (m.problemsOfCharts earlier charts).filter Problem.isMissingAudio
      = (charts.filter fun c =>
          c.general.audioFilename != "" && !m.hasAudio c.general.audioFilename).map
        fun c => .audioNotFound c.general.audioFilename := by
  induction charts generalizing earlier with
  | nil => rfl
  | cons c rest ih =>
    rw [problemsOfCharts, List.filter_append, ih, List.filter_cons]
    simp only [problemsOfChart, List.filter_append, filter_reportIf, Problem.isMissingAudio,
      Bool.and_false, Bool.and_true]
    split
    next h =>
      rw [h]
      rfl
    next h =>
      rw [eq_false_of_ne_true h]
      rfl

/-- The paths for which audio is reported missing, in the order of the charts. -/
theorem filter_missingAudio {m : Mapset} (hsound : ∀ member ∈ m.members, member.IsSound) :
    m.problems.filter Problem.isMissingAudio
      = (m.charts.filter fun c =>
          c.general.audioFilename != "" && !m.findsAudio c.general.audioFilename).map
        fun c => .audioNotFound c.general.audioFilename := by
  rw [filter_problems m (by decide), filter_problemsOfCharts]
  simp only [hasAudio_eq_findsAudio hsound]

/-- **Roles and audio lookup.** Normalising a path preserves its role, so a member that matches a
path has the role of the path. In a mapset whose members are built from paths and contents, the
missing audio problems are therefore exactly those of the charts that name an audio file and whose
path does not have an audio file as its first matching member. -/
theorem audioProblems_exact :
    (∀ path, Role.ofPath (Path.comparable path) = Role.ofPath path)
      ∧ (∀ (member : Member) (path : String), member.matchesPath path = true
        → Role.ofPath member.path.toList = Role.ofPath path.toList)
      ∧ ∀ m : Mapset, (∀ member ∈ m.members, ∃ path content, member = .ofContent path content)
        → (m.problems.map Problem.message).filter saysNotFound
          = (m.charts.filter fun c =>
              c.general.audioFilename != "" && !m.findsAudio c.general.audioFilename).map
            (fun c => "Audio file not found: " ++ c.general.audioFilename)
        ∧ ∀ c ∈ m.charts, c.general.audioFilename ≠ ""
          → ("Audio file not found: " ++ c.general.audioFilename ∈ m.problems.map Problem.message
            ↔ ¬∃ member, m.findMember? c.general.audioFilename = some member
              ∧ member.role = .audio) := by
  refine ⟨Role.ofPath_comparable, fun _ _ h => Role.ofPath_of_comparable (eq_of_beq h), ?_⟩
  intro m hmade
  have hsound : ∀ member ∈ m.members, member.IsSound := by
    intro member hmem
    obtain ⟨path, content, rfl⟩ := hmade member hmem
    exact Member.isSound_ofContent path content
  have hwording : saysNotFound ∘ Problem.message = Problem.isMissingAudio :=
    funext saysNotFound_message
  have htexts : (m.problems.map Problem.message).filter saysNotFound
      = (m.charts.filter fun c =>
          c.general.audioFilename != "" && !m.findsAudio c.general.audioFilename).map
        fun c => "Audio file not found: " ++ c.general.audioFilename := by
    rw [List.filter_map, hwording, filter_missingAudio hsound, List.map_map]
    rfl
  refine ⟨htexts, ?_⟩
  intro c hc hname
  have hsays : saysNotFound ("Audio file not found: " ++ c.general.audioFilename) = true := by
    simp [saysNotFound]
  have hreported :
      "Audio file not found: " ++ c.general.audioFilename ∈ m.problems.map Problem.message
      ↔ ∃ d, (d ∈ m.charts ∧ d.general.audioFilename ≠ ""
        ∧ ¬m.findsAudio d.general.audioFilename = true)
        ∧ "Audio file not found: " ++ d.general.audioFilename
          = "Audio file not found: " ++ c.general.audioFilename := by
    rw [← and_iff_left (a := _ ∈ _) hsays, ← List.mem_filter, htexts, List.mem_map]
    simp only [List.mem_filter, Bool.and_eq_true, bne_iff_ne, Bool.not_eq_true', Bool.not_eq_true]
  rw [hreported, ← findsAudio_iff]
  constructor
  · rintro ⟨d, ⟨-, -, hmissing⟩, htext⟩
    rwa [(String.append_right_inj _).mp htext] at hmissing
  · intro hmissing
    exact ⟨c, ⟨hc, hname, hmissing⟩, rfl⟩

/-- A mapset with one chart whose audio file differs in case, and one chart that names an image. -/
def withAudio : Mapset where
  charts := [{ general := { audioFilename := "SONG.İ.mp3" } },
    { general := { audioFilename := "bg.png" } }, {}]
  members := [.ofContent "BG.PNG" .empty, .ofContent "Song.i̇.MP3" .empty]

theorem audioProblems_exact_of_audio :
    Role.ofPath "Song.i̇.MP3".toList = Role.ofPath "SONG.İ.mp3".toList
      ∧ (∀ member ∈ withAudio.members, ∃ path content, member = .ofContent path content)
      ∧ (withAudio.problems.map Problem.message).filter saysNotFound
        = ["Audio file not found: bg.png"]
      ∧ ¬∃ member, withAudio.findMember? "bg.png" = some member ∧ member.role = .audio := by
  obtain ⟨-, hrole, hexact⟩ := audioProblems_exact
  have hmade : ∀ member ∈ withAudio.members, ∃ path content, member = .ofContent path content := by
    intro member hmem
    rcases List.mem_pair.mp hmem with rfl | rfl
    · exact ⟨_, _, rfl⟩
    · exact ⟨_, _, rfl⟩
  obtain ⟨hlist, hreported⟩ := hexact withAudio hmade
  have htexts : (withAudio.problems.map Problem.message).filter saysNotFound
      = ["Audio file not found: bg.png"] := by
    rw [hlist]
    decide +kernel
  have hmem : "Audio file not found: bg.png" ∈ withAudio.problems.map Problem.message := by
    apply List.mem_of_mem_filter (p := saysNotFound)
    rw [htexts]
    exact List.mem_singleton_self _
  refine ⟨hrole (.ofContent "Song.i̇.MP3" .empty) "SONG.İ.mp3" (by decide +kernel),
    hmade, htexts, ?_⟩
  have hchart : { general := { audioFilename := "bg.png" } } ∈ withAudio.charts := by
    simp [withAudio]
  exact (hreported _ hchart (by decide)).mp hmem

end Mapset

end Beatmap
