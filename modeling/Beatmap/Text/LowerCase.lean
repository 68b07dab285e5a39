import Beatmap.Text.CaseTables

/-!
# Lower case

Unicode lower case. All mappings are per character (`lowerChar`) except for two: a capital I with a
dot becomes two characters, and a capital sigma becomes a final or a medial one, depending on its
context (`endsWord`).

A sigma is final if, ignoring characters with the property Case_Ignorable, it is preceded by a cased
letter and not followed by one.
-/

namespace Beatmap.Text

/-- Whether `c` has the property Cased. -/
def isCased (c : Char) : Bool := casedRanges.contains c

/-- Whether `c` has the property Case_Ignorable. -/
def isCaseIgnorable (c : Char) : Bool := ignorableRanges.contains c

/-- Whether a character belongs to a run. -/
def CaseRun.holds (run : CaseRun) (c : Char) : Bool :=
  run.first ≤ c.toNat && c.toNat ≤ run.last && (c.toNat - run.first) % run.step == 0

/-- The context-free lower-case mapping of a character. -/
def lowerChar (c : Char) : List Char :=
  if c = '\u0130' then ['i', '\u0307']
  else match caseRuns.find? (·.holds c) with
    | some run => [Char.ofNat (run.target + (c.toNat - run.first))]
    | none => [c]

/-- Whether the first character that is not case-ignorable is cased. -/
def casedNext (text : List Char) : Bool :=
  match text.dropWhile isCaseIgnorable with
  | [] => false
  | c :: _ => isCased c

/-- Whether a position is the end of a word, given the characters before it in reverse order and the
characters after it. -/
def endsWord (before rest : List Char) : Bool := casedNext before && !casedNext rest

/-- Lower case of a text that is preceded by `before`, given in reverse order. -/
def lowerFrom (before : List Char) : List Char → List Char
  | [] => []
  | c :: rest =>
    if c = 'Σ' then (if endsWord before rest then 'ς' else 'σ') :: lowerFrom (c :: before) rest
    else lowerChar c ++ lowerFrom (c :: before) rest

/-- Lower case of a text. -/
def lowerCase (text : List Char) : List Char := lowerFrom [] text

end Beatmap.Text
