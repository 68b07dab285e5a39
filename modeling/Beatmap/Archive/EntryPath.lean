import Beatmap.Files.Path
import Beatmap.Mapset.Path

/-!
# Paths of entries

The name of an entry is a path in the syntax of some operating system. `ofName?` translates it into
a list of path components relative to the extraction directory: volume and root prefixes are
dropped, both separators split the name, and `.` and `..` are tracked by a depth counter. A name
whose depth would become negative, or that contains a NUL, has no path. The components of a path are
plain (`isPlain_of_ofName?`): none is empty, `.`, `..` or contains a separator.

Verbatim names, which start with `\\?\`, are the exception. Only `\` splits them, so a component may
contain `/`. As that is the separator of the file system, such a component can amount to several
components, lead to the root, or step back.
-/

namespace Beatmap.Archive

open Beatmap.Files (isIdle goBack mem_of_mem_goBack goBack_of_not_isIdle)
open Beatmap.Path (isSeparator forwardSlashes not_mem_forwardSlashes)

/-- The components of a path, outermost first. An absolute path starts with an empty component. -/
abbrev EntryPath := List String

namespace EntryPath

/-! ## Separators -/

/-- The prefix of verbatim paths. -/
def verbatimMark : List Char := ['\\', '\\', '?', '\\']

/-- Whether a name is a verbatim path. -/
def isVerbatim (name : List Char) : Bool := verbatimMark.isPrefixOf name

/-- Whether `c` separates the components of a name. -/
def divides (name : List Char) (c : Char) : Bool :=
  if isVerbatim name then c == '\\' else isSeparator c

/-! ## Volume prefixes

The functions of this section take the predicate `divider` for the separators of the name. -/

/-- The text from the first divider on. -/
def fromDivider (divider : Char → Bool) (text : List Char) : List Char :=
  text.dropWhile (!divider ·)

/-- The text after a server and its share. The server is required and the share is optional. -/
def behindShare? (divider : Char → Bool) (text : List Char) : Option (List Char) :=
  if text.head?.all divider then none
  else some (fromDivider divider ((fromDivider divider text).drop 1))

/-- Whether `c` is a drive letter. -/
def isDriveLetter (c : Char) : Bool := ('A' ≤ c && c ≤ 'Z') || ('a' ≤ c && c ≤ 'z')

/-- The text after a drive prefix. -/
def behindDrive? : List Char → Option (List Char)
  | letter :: ':' :: rest => if isDriveLetter letter then some rest else none
  | _ => none

/-- The text after the server and the share of a `UNC` prefix. -/
def behindAnnouncedShare? (divider : Char → Bool) : List Char → Option (List Char)
  | 'U' :: 'N' :: 'C' :: c :: rest => if divider c then behindShare? divider rest else none
  | _ => none

/-- The text after a volume prefix of any kind: a server and a share, a drive, or a single name. -/
def behindAnyVolume (divider : Char → Bool) (text : List Char) : List Char :=
  (behindAnnouncedShare? divider text).getD
    ((behindDrive? text).getD (fromDivider divider text))

/-- The text after a prefix of two separators: a server and a share, or, if `?` and a separator
follow, a volume prefix of any kind. -/
def behindShareOrVolume? (divider : Char → Bool) (text : List Char) : Option (List Char) :=
  match text with
  | '?' :: c :: rest =>
    if divider c then some (behindAnyVolume divider rest) else behindShare? divider text
  | _ => behindShare? divider text

/-- A path without its volume prefix. -/
def dropVolume (divider : Char → Bool) (path : List Char) : List Char :=
  match path with
  | a :: b :: rest =>
    if divider a && divider b then (behindShareOrVolume? divider rest).getD path
    else (behindDrive? path).getD path
  | _ => path

/-! ## Resolving a name -/

/-- The components of a name. -/
def parts (name : List Char) : List (List Char) :=
  let path := dropVolume (divides name) name
  if isVerbatim name then Text.pieces '\\' path else Text.pieces '/' (forwardSlashes path)

/-- Appends a component of a verbatim name. A component that starts with a slash restarts at the
root. -/
def goOn (path : EntryPath) (part : List Char) : EntryPath :=
  let steps := (Text.pieces '/' part).map String.ofList
  if part.head? = some '/' then steps
  else if path.getLast? = some "" then path.dropLast ++ steps
  else path ++ steps

/-- The state of resolving a name: the components so far and their depth. -/
structure Walk where
  path : EntryPath := []
  /-- The number of components minus the number of `..` components. -/
  depth : Nat := 0

/-- Resolves one component of a name. Fails when the depth would become negative. -/
def Walk.follow (walk : Walk) (part : List Char) : Option Walk :=
  if part = [] ∨ part = ['.'] then some walk
  else if part = ['.', '.'] then
    if walk.depth = 0 then none else some ⟨goBack walk.path, walk.depth - 1⟩
  else some ⟨goOn walk.path part, walk.depth + 1⟩

/-- The path that a name resolves to, or `none` if it leaves the extraction directory. -/
def ofName? (name : List Char) : Option EntryPath :=
  if '\x00' ∈ name then none else ((parts name).foldlM Walk.follow {}).map Walk.path

/-- The path as text. -/
def text (path : EntryPath) : String := String.intercalate "/" path

/-- Whether the path is absolute. -/
def isAbsolute (path : EntryPath) : Bool := path.head? == some ""

/-! ## Plain paths -/

/-- A plain component: not empty, neither `.` nor `..`, and without separators. -/
def IsPlainStep (step : List Char) : Prop :=
  step ≠ [] ∧ step ≠ ['.'] ∧ step ≠ ['.', '.'] ∧ '/' ∉ step ∧ '\\' ∉ step

/-- A path all of whose components are plain. -/
def IsPlain (path : EntryPath) : Prop := ∀ step ∈ path, IsPlainStep step.toList

theorem isIdle_of_isPlainStep {step : String} (h : IsPlainStep step.toList) :
    isIdle step = false := by
  simp only [isIdle, Bool.or_eq_false_iff, beq_eq_false_iff_ne]
  exact ⟨fun e => h.1 (by simp [e]), fun e => h.2.1 (by simp [e])⟩

/-- On a plain path, `goBack` removes the last component. -/
theorem goBack_of_isPlain {path : EntryPath} (h : IsPlain path) : goBack path = path.dropLast :=
  goBack_of_not_isIdle fun step hs => isIdle_of_isPlainStep (h step hs)

/-- Unless the name is verbatim, no component contains a separator. -/
theorem not_mem_part {name part : List Char} (hv : isVerbatim name = false)
    (hp : part ∈ parts name) :
    '/' ∉ part ∧ '\\' ∉ part := by
  simp only [parts, hv, Bool.false_eq_true, if_false] at hp
  refine ⟨Text.not_mem_of_mem_pieces hp, fun hm => ?_⟩
  refine not_mem_forwardSlashes (dropVolume (divides name) name) ?_
  rw [← Text.join_pieces '/' (forwardSlashes _)]
  exact Text.mem_join_of_mem hp hm

/-- A component without slashes is appended as one component. -/
theorem goOn_of_isPlain {path : EntryPath} {part : List Char} (h : IsPlain path)
    (hp : IsPlainStep part) : goOn path part = path ++ [String.ofList part] := by
  have hr : part.head? ≠ some '/' := fun e => hp.2.2.2.1 (List.mem_of_mem_head? e)
  have hl : path.getLast? ≠ some "" := fun e => (h _ (List.mem_of_getLast? e)).1 rfl
  simp only [goOn, hr, hl, if_false, Text.pieces_eq_singleton hp.2.2.2.1, List.map_cons,
    List.map_nil]

theorem isPlain_follow {walk next : Walk} {part : List Char} (h : IsPlain walk.path)
    (hs : '/' ∉ part ∧ '\\' ∉ part) (e : walk.follow part = some next) : IsPlain next.path := by
  unfold Walk.follow at e
  split at e
  · exact Option.some.inj e ▸ h
  · next hd =>
    split at e
    · split at e
      · simp at e
      · rw [← Option.some.inj e]
        exact fun step hm => h step (mem_of_mem_goBack hm)
    · next hp =>
      have hpart : IsPlainStep part :=
        ⟨fun h => hd (Or.inl h), fun h => hd (Or.inr h), hp, hs.1, hs.2⟩
      rw [← Option.some.inj e]
      simp only [goOn_of_isPlain h hpart]
      intro step hm
      rcases List.mem_append.1 hm with hm | hm
      · exact h step hm
      · rw [List.mem_singleton.1 hm, String.toList_ofList]
        exact hpart

theorem isPlain_foldlM_follow (parts : List (List Char)) {walk last : Walk} (h : IsPlain walk.path)
    (hs : ∀ part ∈ parts, '/' ∉ part ∧ '\\' ∉ part)
    (e : parts.foldlM Walk.follow walk = some last) : IsPlain last.path := by
  induction parts generalizing walk with
  | nil => exact Option.some.inj e ▸ h
  | cons part rest ih =>
    rw [List.foldlM_cons] at e
    obtain ⟨next, hn, e⟩ := Option.bind_eq_some_iff.1 e
    exact ih (isPlain_follow h (hs part (List.mem_cons_self ..)) hn)
      (fun p hp => hs p (List.mem_cons_of_mem _ hp)) e

/-- A name that is not verbatim resolves to a plain path. -/
theorem isPlain_of_ofName? {name : List Char} {path : EntryPath} (hv : isVerbatim name = false)
    (h : ofName? name = some path) : IsPlain path := by
  unfold ofName? at h
  split at h
  · simp at h
  · obtain ⟨last, hl, rfl⟩ := Option.map_eq_some_iff.1 h
    exact isPlain_foldlM_follow _ (by simp [IsPlain]) (fun _ hp => not_mem_part hv hp) hl

end EntryPath

end Beatmap.Archive
