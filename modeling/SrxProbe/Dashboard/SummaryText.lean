import SrxProbe.Dashboard.RunSafety
import SrxProbe.Dashboard.History
import SrxProbe.Dashboard.SummaryLine
import SrxProbe.Lib.Lines
import SrxProbe.Lib.Utf8

/-!
# The summary through the text channel

The CLI prints a line for each result of a suite, and the dashboard reads rows back from
the pieces in which it retains the output. Errors are printed as they are, so their text
can look like a heading or like a row.
-/

namespace SrxProbe.Dashboard

open SrxProbe.Lib SrxProbe.Deploy

/-! ## The lines that give rows -/

/-- The line gives a row. -/
def isRow (line : PyStr) : Bool :=
  !decide (summaryTitle <:+: line) && (summaryRe.matchAt [] (strip line)).isSome

/-- The lines that the rows are read from: those behind the first heading that match. -/
def rowLines (lines : List PyStr) : List PyStr :=
  (lines.dropWhile fun line => !decide (summaryTitle <:+: line)).filter isRow

/-- The row is read from the line. -/
def RowOf (line : PyStr) (row : BatchRow) : Prop :=
  ∃ m, summaryRe.matchAt [] (strip line) = some m ∧ rowOfMatch m = .ok row

/-- No line behind a heading gives a row. -/
def Quiet (lines : List PyStr) : Prop :=
  ∀ front heading back, lines = front ++ heading :: back → summaryTitle <:+: heading →
    ∀ line ∈ back, isRow line = false

section rows

variable {lines rest : List PyStr} {line heading : PyStr} {rows : List BatchRow}

theorem isRow_heading (h : summaryTitle <:+: heading) : isRow heading = false := by
  rw [isRow, decide_eq_true h]
  rfl

theorem filter_heading (h : summaryTitle <:+: heading) (lines : List PyStr) :
    (heading :: lines).filter isRow = lines.filter isRow := by
  rw [List.filter_cons_of_neg (by rw [isRow_heading h]; exact Bool.false_ne_true)]

theorem rowLines_heading (h : summaryTitle <:+: heading) (lines : List PyStr) :
    rowLines (heading :: lines) = lines.filter isRow := by
  rw [rowLines, List.dropWhile_cons_of_neg (by simp [h]), filter_heading h]

theorem rowLines_cons (h : ¬ summaryTitle <:+: line) (lines : List PyStr) :
    rowLines (line :: lines) = rowLines lines := by
  rw [rowLines, List.dropWhile_cons_of_pos (by simp [h])]
  rfl

/-- Behind a heading, every line that matches gives a row. -/
theorem rowLines_append (h : summaryTitle <:+: heading) (earlier rest : List PyStr) :
    rowLines (earlier ++ heading :: rest) = rowLines earlier ++ rest.filter isRow := by
  induction earlier with
  | nil => exact rowLines_heading h rest
  | cons line earlier ih =>
      by_cases hline : summaryTitle <:+: line
      · rw [List.cons_append, rowLines_heading hline, rowLines_heading hline,
          List.filter_append, filter_heading h]
      · rw [List.cons_append, rowLines_cons hline, rowLines_cons hline, ih]

theorem quiet_iff : Quiet lines ↔ rowLines lines = [] := by
  constructor
  · intro h
    induction lines with
    | nil => rfl
    | cons line lines ih =>
        by_cases hline : summaryTitle <:+: line
        · rw [rowLines_heading hline, List.filter_eq_nil_iff]
          intro l hl
          rw [h [] line lines rfl hline l hl]
          exact Bool.false_ne_true
        · rw [rowLines_cons hline]
          apply ih
          intro front heading back hlines
          exact h (line :: front) heading back (congrArg (line :: ·) hlines)
  · rintro h front heading back rfl hheading
    rw [rowLines_append hheading, List.append_eq_nil_iff, List.filter_eq_nil_iff] at h
    intro line hline
    exact Bool.eq_false_iff.mpr (h.2 line hline)

theorem rows_of_parseBatchLines (h : parseBatchLines true lines = .ok rows) :
    List.Forall₂ RowOf (lines.filter isRow) rows := by
  induction lines generalizing rows with
  | nil =>
      cases h
      exact .nil
  | cons line lines ih =>
      rw [parseBatchLines] at h
      split at h
      · rename_i hheading
        rw [filter_heading hheading]
        exact ih h
      · rename_i hplain
        rw [if_neg Bool.false_ne_true.symm] at h
        split at h
        · rename_i hmatch
          have hno : ¬ isRow line = true := by simp [isRow, hmatch]
          rw [List.filter_cons_of_neg hno]
          exact ih h
        · rename_i m hmatch
          have hyes : isRow line = true := by simp [isRow, hmatch, hplain]
          obtain ⟨row, hrow, h⟩ := bind_ok_iff.mp h
          obtain ⟨rows', hrows', h⟩ := bind_ok_iff.mp h
          cases h
          rw [List.filter_cons_of_pos hyes]
          exact .cons ⟨m, hmatch, hrow⟩ (ih hrows')

/-- Every row is read from one of the lines that match, in their order. -/
theorem rows_of_parseBatchFromLines (h : parseBatchFromLines lines = .ok rows) :
    List.Forall₂ RowOf (rowLines lines) rows := by
  unfold parseBatchFromLines at h
  induction lines with
  | nil =>
      cases h
      exact .nil
  | cons line lines ih =>
      rw [parseBatchLines] at h
      split at h
      · rename_i hheading
        rw [rowLines_heading hheading]
        exact rows_of_parseBatchLines h
      · rename_i hplain
        rw [if_pos rfl] at h
        rw [rowLines_cons hplain]
        exact ih h

end rows

/-! ## The line of a result -/

section result

variable {result : WorkloadResult}

/-- What is printed for a result, as far as errors do not matter. -/
structure Reported (result : WorkloadResult) : Prop where
  name : PlainName result.name
  elapsed : 0 ≤ result.elapsed
  detectionStatus : result.detectionStatus = "not_evaluated".toList

theorem not_isNewline_of_not_isSpace {c : Char} (h : isSpace c = false) : isNewline c = false := by
  rw [Bool.eq_false_iff] at h ⊢
  intro hnewline
  have hc : c = '\n' ∨ c = '\r' := by simpa [isNewline] using hnewline
  rcases hc with rfl | rfl
  · exact h rfl
  · exact h rfl

theorem not_isNewline_toDigits {n : Nat} {c : Char} (h : c ∈ Nat.toDigits 10 n) :
    isNewline c = false :=
  not_isNewline_of_not_isSpace (isDecimal_solid (isDecimal_of_mem_toDigits h)).1

theorem not_isNewline_headText (h : Reported result) :
    ∀ c ∈ result.headText, isNewline c = false := by
  have hstatus : ∀ c ∈ result.statusText, isNewline c = false := by
    unfold WorkloadResult.statusText
    split <;> simp [isNewline]
  have hrc : ∀ c ∈ intText result.returncode, isNewline c = false := by
    obtain ⟨sign, hsign, htext⟩ := intText_eq result.returncode
    rw [htext]
    intro c hc
    rcases List.mem_append.mp hc with hc | hc
    · rcases hsign with rfl | rfl
      · cases hc
      · rw [List.mem_singleton.mp hc]
        rfl
    · exact not_isNewline_toDigits hc
  have helapsed : ∀ c ∈ tenthsText result.elapsed, isNewline c = false := by
    obtain ⟨whole, fraction, htext⟩ := tenthsText_eq h.elapsed
    rw [htext]
    intro c hc
    rcases List.mem_append.mp hc with hc | hc
    · exact not_isNewline_toDigits hc
    · rcases List.mem_cons.mp hc with rfl | hc
      · rfl
      · exact not_isNewline_toDigits hc
  have hname : ∀ c ∈ result.name, isNewline c = false :=
    fun c hc => not_isNewline_of_not_isSpace (h.name.plain c hc).2
  intro c hc
  simp only [WorkloadResult.headText, List.mem_cons, List.mem_append] at hc
  rcases hc with rfl | hc | hc | hc | hc | hc | hc | hc | hc
  · rfl
  · exact hstatus c hc
  · exact (show ∀ c ∈ "] ".toList, isNewline c = false by simp [isNewline]) c hc
  · exact hname c hc
  · exact (show ∀ c ∈ ": rc=".toList, isNewline c = false by simp [isNewline]) c hc
  · exact hrc c hc
  · exact (show ∀ c ∈ " elapsed=".toList, isNewline c = false by simp [isNewline]) c hc
  · exact helapsed c hc
  · exact (show ∀ c ∈ ['s'], isNewline c = false by simp [isNewline]) c (by simpa using hc)

/-- The first line that is printed for a result. -/
theorem firstLine_summaryLine (h : Reported result) :
    firstLine result.summaryLine = result.headText ++ lineTail result.error := by
  have hkeep : ∀ {s : PyStr} (t : PyStr), (∀ c ∈ s, isNewline c = false) →
      firstLine (s ++ t) = s ++ firstLine t := by
    intro s t hs
    exact List.takeWhile_append_of_pos fun c hc => by rw [hs c hc]; rfl
  have hmark : ∀ c ∈ " detection=".toList, isNewline c = false := by simp [isNewline]
  have hvalue : ∀ c ∈ "not_evaluated".toList, isNewline c = false := by simp [isNewline]
  have hdash : ∀ c ∈ " - ".toList, isNewline c = false := by simp [isNewline]
  rw [WorkloadResult.summaryLine, hkeep _ (not_isNewline_headText h), h.detectionStatus,
    hkeep _ hmark, hkeep _ hvalue]
  apply congrArg (result.headText ++ ·)
  unfold WorkloadResult.detailText lineTail
  have hmarks : " detection=not_evaluated".toList =
      " detection=".toList ++ "not_evaluated".toList := rfl
  rw [hmarks, List.append_assoc]
  split
  · rfl
  · rw [hkeep _ hdash]

theorem reportLine_eq (h : Reported result) (hlen : result.headText.length ≤ maxLineChars) :
    reportLine result = result.headText ++
      (lineTail result.error).take (maxLineChars - result.headText.length) := by
  rw [reportLine, firstLine_summaryLine h, List.take_append, List.take_of_length_le hlen]

theorem strip_headText (tail : PyStr) :
    strip (result.headText ++ tail) = result.headText ++ tail.rdropWhile isSpace := by
  have hlast : ∀ c, result.headText.getLast? = some c → isSpace c = false := by
    obtain ⟨front, hfront⟩ : ∃ front, result.headText = front ++ ['s'] :=
      ⟨'[' :: (result.statusText ++ ("] ".toList ++ (result.name ++ (": rc=".toList ++
        (intText result.returncode ++ (" elapsed=".toList ++ tenthsText result.elapsed)))))),
        by simp [WorkloadResult.headText]⟩
    intro c hc
    rw [hfront, List.getLast?_concat] at hc
    cases hc
    rfl
  have hfirst : (result.headText ++ tail).dropWhile isSpace = result.headText ++ tail :=
    List.dropWhile_cons_of_neg (by decide)
  rw [strip, hfirst, rdropWhile_append_of_getLast hlast]

/-- A cut line is a prefix of the line, and so is what is left of it when it is stripped. -/
theorem strip_reportLine_begins (h : Reported result) (hpos : 0 < maxLineChars) :
    strip (reportLine result) <+: result.headText ++ lineTail result.error := by
  have hcut : reportLine result <+: result.headText ++ lineTail result.error := by
    rw [reportLine, firstLine_summaryLine h]
    exact List.take_prefix _ _
  have hfirst : (reportLine result).dropWhile isSpace = reportLine result := by
    obtain ⟨n, hn⟩ : ∃ n, maxLineChars = n + 1 := ⟨maxLineChars - 1, by omega⟩
    rw [reportLine, firstLine_summaryLine h, hn]
    exact List.dropWhile_cons_of_neg (by decide)
  rw [strip, hfirst]
  exact (List.rdropWhile_prefix _ _).trans hcut

theorem maxLineChars_pos : 0 < maxLineChars := by
  unfold maxLineChars
  decide

/-- What the pattern makes of a readable line. -/
theorem matchAt_reportLine (h : Reported result) (hread : Readable result) :
    ∃ m, summaryRe.matchAt [] (strip (reportLine result)) = some m ∧
      ∀ i, i ≠ 5 → m.group i = (headGroups result).lookup i := by
  have hcut : Shape (((lineTail result.error).take
      (maxLineChars - result.headText.length)).rdropWhile isSpace) := by
    apply shape_lineTail
    · have := hread.detection
      have := hread.head
      omega
    · intro herror hk
      exact hread.error herror (by omega)
  obtain ⟨groups, heats, hgroups⟩ := hcut.eats result
  have hmatch := Regex.matchAt_of_eats [] (eats_summary h.name h.elapsed heats)
  rw [List.append_nil] at hmatch
  rw [reportLine_eq h hread.head, strip_headText]
  exact ⟨_, hmatch, hgroups⟩

/-- The line of a result is matched if and only if it can be read. -/
theorem isSome_matchAt_reportLine (h : Reported result) :
    (summaryRe.matchAt [] (strip (reportLine result))).isSome = true ↔ Readable result := by
  constructor
  · intro hmatch
    obtain ⟨m, hm⟩ := Option.isSome_iff_exists.mp hmatch
    have hend : (strip (reportLine result)).getLast? ≠ some '\n' := by
      intro hlast
      have hne : strip (reportLine result) ≠ [] := by
        rintro hnil
        rw [hnil] at hlast
        cases hlast
      have hsolid := List.rdropWhile_last_not isSpace _ hne
      rw [List.getLast?_eq_some_getLast hne, Option.some.injEq] at hlast
      exact hsolid (congrArg isSpace hlast)
    have hlang : strip (reportLine result) ∈ summaryRe.lang :=
      Regex.mem_lang_of_matchAt rfl hm hend
    obtain ⟨tail, htail, -, hoptional⟩ := headText_of_mem_lang h.name h.elapsed hlang
      (strip_reportLine_begins h maxLineChars_pos)
    have hhead : result.headText.length ≤ maxLineChars := by
      have hstrip := length_strip_le (reportLine result)
      have htake : (reportLine result).length ≤ maxLineChars := List.length_take_le _ _
      rw [htail, List.length_append] at hstrip
      omega
    rw [reportLine_eq h hhead, strip_headText] at htail
    rw [← List.append_cancel_left htail] at hoptional
    obtain ⟨hdetection, herror⟩ := readable_of_optionalTail hoptional
    refine ⟨hhead, by omega, ?_⟩
    intro hne hlen
    exact herror hne (by omega)
  · intro hread
    obtain ⟨m, hm, -⟩ := matchAt_reportLine h hread
    rw [hm]
    rfl

/-- The row says of the result what the result says. -/
structure SameResult (result : WorkloadResult) (row : BatchRow) : Prop where
  name : row.name = result.name
  rc : row.rc = result.returncode
  ok : row.ok = true ↔ result.returncode = 0

/-- A row that is read from the line of a result says what the result says. -/
theorem sameResult_of_rowOf {row : BatchRow} (h : Reported result) (hread : Readable result)
    (hrow : RowOf (reportLine result) row) : SameResult result row := by
  obtain ⟨m, hm, hgroups⟩ := matchAt_reportLine h hread
  obtain ⟨m', hm', hrow⟩ := hrow
  obtain rfl := Option.some.inj (hm.symm.trans hm')
  have hstatus : m.group 1 = some result.statusText := hgroups 1 (by decide)
  have hname : m.group 2 = some result.name := hgroups 2 (by decide)
  have hrc : m.group 3 = some (intText result.returncode) := hgroups 3 (by decide)
  -- the exit code is short, as it stands in the line
  have hshort : (Nat.toDigits 10 result.returncode.natAbs).length ≤ maxStrDigits := by
    obtain ⟨sign, -, htext⟩ := intText_eq result.returncode
    have hhead := hread.head
    simp only [WorkloadResult.headText, htext, List.length_cons, List.length_append] at hhead
    have := maxLineChars_le_maxStrDigits
    omega
  have hstrip : strip result.name = result.name := trim_of_solid fun c hc => (h.name.plain c hc).2
  rw [rowOfMatch, hstatus, hname, hrc, Option.getD_some, Option.getD_some, Option.getD_some,
    parseInt_intText hshort] at hrow
  cases hrow
  refine ⟨hstrip, rfl, ?_⟩
  simp only [WorkloadResult.statusText]
  by_cases hzero : result.returncode = 0
  · simp [hzero]
  · simp [hzero]

end result

end SrxProbe.Dashboard
