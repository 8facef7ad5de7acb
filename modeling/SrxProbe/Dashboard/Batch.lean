import SrxProbe.Dashboard.RunInv
import SrxProbe.Lib.RegexLang

/-!
# Batch entries

The history entry of a finished `run all`: the rows that the worker's lines hold
behind the CLI's summary heading, and the counts over them. Retained lines are
short, so no number in them is too long to convert and every run has its entry.
-/

namespace SrxProbe.Dashboard

open SrxProbe.Lib

/-! ## The rows of a summary -/

section pattern

open Regex

/-- The `rc` group of `_SUMMARY_RE`. -/
def rcPattern : Regex := cat [alt (chr '-') eps, digits]

/-- `_SUMMARY_RE`. -/
def summaryRe : Regex :=
  cat [chr '[',
    group 1 (alt (lit "OK".toList) (alt (lit "ERR".toList)
      (alt (lit "SUCCEEDED".toList) (lit "FAILED".toList)))),
    lit "] ".toList, group 2 (plus (cls (· ≠ ':'))),
    lit ": rc=".toList, group 3 rcPattern,
    lit " elapsed=".toList, group 4 (cat [digits, alt (cat [chr '.', digits]) eps]), chr 's',
    alt (cat [lit " detection=".toList, nonspaces]) eps,
    alt (cat [lit " - ".toList, group 5 (plus anyChar)]) eps,
    lineEnd]

end pattern

/-- The number of a run of digits. -/
def digitsValue (s : PyStr) : Nat := (s.filterMap digitValue).foldl (fun n d => 10 * n + d) 0

/-- `float(s)` for digits with an optional fraction, before it is rounded. -/
def decimalValue (s : PyStr) : Rat :=
  let whole := s.takeWhile (· ≠ '.')
  let fraction := (s.dropWhile (· ≠ '.')).drop 1
  digitsValue whole + digitsValue fraction / ((10 ^ fraction.length : Nat) : Rat)

/-- `execution_status`. -/
inductive ExecutionStatus
  | succeeded
  | failed
  deriving DecidableEq, Repr

/-- `"succeeded" if rc == 0 else "failed"`. -/
def executionStatus (succeeded : Bool) : ExecutionStatus :=
  if succeeded then .succeeded else .failed

/-- `detection_status`, which a batch never evaluates. -/
inductive DetectionStatus
  | notEvaluated
  deriving DecidableEq, Repr

/-- One result of `parse_batch_from_lines`. -/
structure BatchRow where
  name : PyStr
  rc : Int
  elapsed : Rat
  ok : Bool
  executionStatus : ExecutionStatus
  detectionStatus : DetectionStatus
  error : PyStr
  deriving DecidableEq, Repr

/-- The row of a match of `_SUMMARY_RE`. -/
def rowOfMatch (m : Regex.Match) : Except PyErr BatchRow := do
  let status := (m.group 1).getD []
  let name := (m.group 2).getD []
  let rc ← orRaise (parseInt ((m.group 3).getD [])) .stdValueError
  return {
    name := strip name
    rc
    elapsed := decimalValue ((m.group 4).getD [])
    ok := (status = "OK".toList || status = "SUCCEEDED".toList) && rc = 0
    executionStatus := executionStatus (rc = 0)
    detectionStatus := .notEvaluated
    error := (m.group 5).getD [] }

/-- The heading of the CLI's summary. -/
def summaryTitle : PyStr := "WORKLOAD SUMMARY".toList

/-- The loop of `parse_batch_from_lines`, with `in_summary`. -/
def parseBatchLines (inSummary : Bool) : List PyStr → Except PyErr (List BatchRow)
  | [] => .ok []
  | line :: lines =>
      if summaryTitle <:+: line then parseBatchLines true lines
      else if inSummary = false then parseBatchLines false lines
      else
        match summaryRe.matchAt [] (strip line) with
        | none => parseBatchLines true lines
        | some m => do
            let row ← rowOfMatch m
            let rows ← parseBatchLines true lines
            return row :: rows

/-- `parse_batch_from_lines`. -/
def parseBatchFromLines (lines : List PyStr) : Except PyErr (List BatchRow) :=
  parseBatchLines false lines

/-! ## The entry of a run -/

/-- An entry of `HISTORY`. -/
structure BatchEntry where
  id : PyStr
  started : Time
  ended : Option Time
  elapsed : Time
  rc : Option Int
  summaryAvailable : Bool
  executionStatus : ExecutionStatus
  detectionStatus : DetectionStatus
  total : Nat
  passed : Nat
  failed : Nat
  results : List BatchRow
  deriving DecidableEq, Repr

/-- What `finish` copies of an entry. -/
def BatchEntry.ref (entry : BatchEntry) : BatchRef where
  id := entry.id
  passed := entry.passed
  failed := entry.failed
  total := entry.total

/-- `run.ended or time.time()`. -/
def Run.endedOr (r : Run) (now : Time) : Time :=
  match r.ended with
  | some ended => if ended = 0 then now else ended
  | none => now

/-- The `entry` of `record_batch`. -/
def batchEntry (r : Run) (now : Time) : Except PyErr BatchEntry := do
  let results ← parseBatchFromLines r.lines.items
  let passed := results.countP BatchRow.ok
  return {
    id := r.id
    started := r.started
    ended := r.ended
    elapsed := r.endedOr now - r.started
    rc := r.returncode
    summaryAvailable := !results.isEmpty
    executionStatus := executionStatus (r.returncode = some 0)
    detectionStatus := .notEvaluated
    total := results.length
    passed
    failed := results.length - passed
    results }

/-! ## Every run has its entry -/

/-- A retained line has fewer characters than `int` converts digits. -/
theorem maxLineChars_le_maxStrDigits : maxLineChars ≤ maxStrDigits := by
  unfold maxLineChars maxStrDigits
  decide

theorem length_strip_le (s : PyStr) : (strip s).length ≤ s.length := by
  obtain ⟨lead, trail, hs, -⟩ := exists_strip s
  have hlen := congrArg List.length hs
  simp only [List.length_append] at hlen
  omega

/-- What the `rc` group captures is a number that `int` converts. -/
theorem isSome_parseInt_rc {text : PyStr} (h : text ∈ rcPattern.lang)
    (hlen : text.length ≤ maxStrDigits) : (parseInt text).isSome = true := by
  obtain ⟨sign, hsign, ds, hds, rfl⟩ := Regex.mem_lang_cat_cons.mp h
  obtain ⟨hne, hover⟩ := Regex.over_of_mem_lang_plus (Regex.mem_lang_cat_last.mp hds)
  rw [List.length_append] at hlen
  apply isSome_parseInt _ hne hover (by omega)
  rcases hsign with ⟨c, hc, rfl⟩ | hnil
  · exact .inr (by rw [beq_iff_eq.mp hc])
  · exact .inl hnil

/-- The third group of `_SUMMARY_RE` is the return code, and every match has one. -/
theorem captures_rc {q : Regex} (h : (3, q) ∈ summaryRe.captures) : q = rcPattern := by
  simpa [summaryRe, rcPattern, Regex.cat, Regex.captures, Regex.captures_lit, Regex.plus,
    Regex.digits, Regex.nonspaces, Regex.anyChar, Regex.lineEnd, Regex.chr] using h

theorem always_rc : summaryRe.always 3 = true := by
  simp [summaryRe, Regex.cat, Regex.always]

theorem rowOfMatch_ok {text : PyStr} {m : Regex.Match} (h : summaryRe.matchAt [] text = some m)
    (hlen : text.length ≤ maxLineChars) : ∃ row, rowOfMatch m = .ok row := by
  obtain ⟨rcText, hgroup⟩ := Regex.exists_group h always_rc
  obtain ⟨hpart, q, hq, hword⟩ := Regex.group_mem_lang h hgroup
  rw [captures_rc hq] at hword
  have hshort : rcText.length ≤ maxStrDigits :=
    (hpart.length_le.trans hlen).trans maxLineChars_le_maxStrDigits
  obtain ⟨rc, hrc⟩ := Option.isSome_iff_exists.mp (isSome_parseInt_rc hword hshort)
  rw [rowOfMatch, hgroup, Option.getD_some, hrc, orRaise_some]
  exact ⟨_, rfl⟩

theorem parseBatchLines_ok {lines : List PyStr} (h : ∀ line ∈ lines, line.length ≤ maxLineChars)
    (inSummary : Bool) : ∃ rows, parseBatchLines inSummary lines = .ok rows := by
  induction lines generalizing inSummary with
  | nil => exact ⟨[], rfl⟩
  | cons line lines ih =>
      have ih := ih fun l hl => h l (List.mem_cons_of_mem line hl)
      unfold parseBatchLines
      split
      · exact ih true
      · split
        · exact ih false
        · split
          · exact ih true
          · rename_i m hmatch
            have hline := h line List.mem_cons_self
            obtain ⟨row, hrow⟩ := rowOfMatch_ok hmatch ((length_strip_le line).trans hline)
            obtain ⟨rows, hrows⟩ := ih true
            rw [hrow, hrows]
            exact ⟨row :: rows, rfl⟩

/-- The entry of a run in good order is there. -/
theorem batchEntry_ok {r : Run} (h : ∀ line ∈ r.lines.items, line.length ≤ maxLineChars)
    (now : Time) : ∃ entry, batchEntry r now = .ok entry := by
  obtain ⟨rows, hrows⟩ := parseBatchLines_ok h false
  rw [batchEntry, parseBatchFromLines, hrows]
  exact ⟨_, rfl⟩

end SrxProbe.Dashboard
