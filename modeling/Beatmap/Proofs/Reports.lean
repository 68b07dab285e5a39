import Beatmap.Command.Report
import Beatmap.Proofs.Outcome
import Beatmap.Proofs.RoundTrip

/-!
# Report, summary and list of failures

An item of the report represents the result for one archive (`IsEntryOf`): a mapset with its
diagnostics and problems, or an error. The counts of the summary and the lines of the list of
failures are accumulated separately from the report. `Tally.AccountsFor` states that they agree with
the items; it is preserved by every archive (`Tally.AccountsFor.add`) and therefore holds at the end
(`Tally.accountsFor_foldl`). Every archive is counted exactly once (`Tally.AccountsFor.total`).
-/

namespace Beatmap

/-- The field of an object with a name that occurs exactly once. -/
def Json.Value.named? : Json.Value → String → Option Json.Value
  | .object fields, name => Json.theField? fields name
  | _, _ => none

namespace Command

open Beatmap.Json

/-! ## Items of the report -/

/-- The item of the report represents the result for a file. -/
structure IsEntryOf (item : Value) (file : String) (result : Except Failure Processed) : Prop where
  file : item.named? "file" = some (.text file)
  ok : ∀ p, result = .ok p → item.named? "mapset" = some p.mapset.toJson
    ∧ item.named? "diagnostics" = some (.list (fun r => .text r.message) p.remarks)
    ∧ item.named? "problems" = some (.list (fun problem => .text problem.message) p.problems)
    ∧ item.named? "error" = none
  error : ∀ failure, result = .error failure → item.named? "mapset" = none
    ∧ item.named? "diagnostics" = some (.array []) ∧ item.named? "problems" = some (.array [])
    ∧ item.named? "error" = some (.text failure.message)

/-- Whether the item has a mapset. -/
def hasMapset (item : Value) : Bool := (item.named? "mapset").isSome

/-- Whether the item has an error. -/
def hasError (item : Value) : Bool := (item.named? "error").isSome

/-- Whether the item has problems. -/
def hasProblems (item : Value) : Bool :=
  match item.named? "problems" with
  | some (.array (_ :: _)) => true
  | _ => false

/-- The line of the list of failures for an item with an error. -/
def failureLine? (item : Value) : Option String :=
  match item.named? "file", item.named? "error" with
  | some (.string (some file)), some (.string (some error)) => some (file ++ ": " ++ error)
  | _, _ => none

theorem isEntryOf_toJson (e : ReportEntry) : IsEntryOf e.toJson e.file e.outcome := by
  unfold ReportEntry.toJson
  cases e.outcome with
  | ok p =>
    refine ⟨by simp [Value.record, Value.named?, theField?], ?_, by simp⟩
    rintro q hq
    cases hq
    simp [Value.record, Value.named?, theField?, ReportEntry.texts, Value.list]
  | error failure =>
    refine ⟨by simp [Value.record, Value.named?, theField?], by simp, ?_⟩
    rintro other ho
    cases ho
    simp [Value.record, Value.named?, theField?, ReportEntry.texts, Value.list]

variable {item : Value} {file : String}

theorem IsEntryOf.of_ok {p : Processed} (h : IsEntryOf item file (.ok p)) :
    hasMapset item = true ∧ hasError item = false ∧ hasProblems item = !p.isValid
      ∧ failureLine? item = none := by
  obtain ⟨hmapset, -, hproblems, herror⟩ := h.ok p rfl
  refine ⟨by simp [hmapset, hasMapset], by simp [herror, hasError], ?_,
    by simp [failureLine?, herror]⟩
  unfold hasProblems
  rw [hproblems, Processed.isValid]
  cases p.problems <;> rfl

theorem IsEntryOf.of_error {failure : Failure} (h : IsEntryOf item file (.error failure)) :
    hasMapset item = false ∧ hasError item = true
      ∧ failureLine? item = some (file ++ ": " ++ failure.message) := by
  obtain ⟨hmapset, -, -, herror⟩ := h.error failure rfl
  exact ⟨by simp [hmapset, hasMapset], by simp [herror, hasError],
    by simp [failureLine?, h.file, herror, Value.text]⟩

/-- An item has either a mapset or an error. -/
theorem IsEntryOf.hasMapset_eq {result : Except Failure Processed}
    (h : IsEntryOf item file result) :
    hasMapset item = !hasError item := by
  cases result with
  | ok p =>
    obtain ⟨hmapset, herror, -, -⟩ := h.of_ok
    rw [hmapset, herror]
    rfl
  | error failure =>
    obtain ⟨hmapset, herror, -⟩ := h.of_error
    rw [hmapset, herror]
    rfl

/-- An item has a line in the list of failures exactly if it represents a failure. -/
theorem IsEntryOf.failureLine?_eq_none_iff {result : Except Failure Processed}
    (h : IsEntryOf item file result) : failureLine? item = none ↔ ∃ p, result = .ok p := by
  cases result with
  | ok p => simp [h.of_ok.2.2.2]
  | error failure => simp [h.of_error.2.2]

/-- The summary of a list of items: the numbers of valid mapsets, of invalid mapsets, and of errors.
-/
def summaryOf (items : List Value) : String :=
  "\n✅ Summary:\n"
    ++ s!"   Valid:       {items.countP fun item => hasMapset item && !hasProblems item}\n"
    ++ s!"   Invalid:     {items.countP fun item => hasMapset item && hasProblems item}\n"
    ++ s!"   Failed:      {items.countP hasError}\n"

/-! ## Parsing the report -/

theorem ReportEntry.isRegular_toJson (e : ReportEntry) : e.toJson.IsRegular := by
  have htexts : ∀ items, (ReportEntry.texts items).IsRegular :=
    Value.isRegular_list Value.isRegular_text
  unfold toJson
  split
  next p _ => exact Value.isRegular_record (by simp [htexts, Mapset.isRegular_toJson])
  next => exact Value.isRegular_record (by simp [htexts])

/-- The report is parsed back as the list of its items. -/
theorem parse_report (entries : List ReportEntry) :
    parse (report entries).toList = some (.array (entries.map ReportEntry.toJson)) := by
  rw [report, String.toList_ofList]
  exact parse_print .lined (Value.isRegular_list ReportEntry.isRegular_toJson entries)

/-! ## Tallies -/

namespace Tally

/-- The tally agrees with the items of the report. -/
structure AccountsFor (tally : Tally) (items : List Value) : Prop where
  entries : tally.entries.toList.map ReportEntry.toJson = items
  failures : tally.failures.toList = items.filterMap failureLine?
  valid : tally.valid = items.countP fun item => hasMapset item && !hasProblems item
  invalid : tally.invalid = items.countP fun item => hasMapset item && hasProblems item
  failed : tally.failures.size = items.countP hasError
  /-- Every archive is counted exactly once. -/
  total : tally.valid + tally.invalid + tally.failures.size = items.length

theorem AccountsFor.counts {tally : Tally} {items : List Value} (h : tally.AccountsFor items) :
    (items.countP fun item => hasMapset item && !hasProblems item)
      + (items.countP fun item => hasMapset item && hasProblems item) + items.countP hasError
        = items.length := by
  rw [← h.valid, ← h.invalid, ← h.failed]
  exact h.total

theorem AccountsFor.summary_eq {tally : Tally} {items : List Value} (h : tally.AccountsFor items) :
    tally.summary = summaryOf items := by
  unfold Tally.summary summaryOf
  rw [h.valid, h.invalid, h.failed]

theorem accountsFor_empty : AccountsFor {} [] := ⟨rfl, rfl, rfl, rfl, rfl, rfl⟩

/-- Adding an archive preserves the agreement. -/
theorem AccountsFor.add {tally : Tally} {items : List Value} (h : tally.AccountsFor items)
    (e : ReportEntry) : (tally.add e).AccountsFor (items ++ [e.toJson]) := by
  obtain ⟨hentries, hfailures, hvalid, hinvalid, hfailed, htotal⟩ := h
  have hitem := isEntryOf_toJson e
  unfold Tally.add
  cases houtcome : e.outcome with
  | ok p =>
    rw [houtcome] at hitem
    obtain ⟨hmapset, herror, hproblems, hline⟩ := hitem.of_ok
    cases hok : p.isValid with
    | true =>
      rw [hok] at hproblems
      refine ⟨?_, ?_, ?_, ?_, ?_, ?_⟩
      · simp [hok, hentries]
      · simp [hok, hfailures, hline]
      · simp [hok, hvalid, hmapset, hproblems]
      · simp [hok, hinvalid, hmapset, hproblems]
      · simp [hok, hfailed, herror]
      · simp only [hok, if_true, List.length_append, List.length_singleton]
        omega
    | false =>
      rw [hok] at hproblems
      refine ⟨?_, ?_, ?_, ?_, ?_, ?_⟩
      · simp [hok, hentries]
      · simp [hok, hfailures, hline]
      · simp [hok, hvalid, hmapset, hproblems]
      · simp [hok, hinvalid, hmapset, hproblems]
      · simp [hok, hfailed, herror]
      · simp only [hok, Bool.false_eq_true, if_false, List.length_append, List.length_singleton]
        omega
  | error failure =>
    rw [houtcome] at hitem
    obtain ⟨hmapset, herror, hline⟩ := hitem.of_error
    refine ⟨?_, ?_, ?_, ?_, ?_, ?_⟩
    · simp [hentries]
    · simp only [Array.toList_push, hfailures, List.filterMap_append, List.filterMap_cons, hline,
        List.filterMap_nil]
      rfl
    · simp [hvalid, hmapset]
    · simp [hinvalid, hmapset]
    · simp [hfailed, herror]
    · simp only [Array.size_push, List.length_append, List.length_singleton]
      omega

/-- The tally of a list of entries. -/
theorem accountsFor_foldl (entries : List ReportEntry) :
    (entries.foldl add {}).AccountsFor (entries.map ReportEntry.toJson) := by
  induction entries using List.reverseRecOn with
  | nil => exact accountsFor_empty
  | append_singleton before last ih =>
    rw [List.foldl_append, List.map_append]
    exact ih.add last

end Tally

end Command

end Beatmap
