import Mathlib.Algebra.Order.Ring.Rat
import Mathlib.Tactic.NormNum.Ineq
import SrxProbe.Dashboard.SummaryText
import SrxProbe.Generators.TargetUrl

/-!
# The rows of a batch

What the history stores of a suite, for all that its functions do and for whatever is
printed before the summary. The rows are those of the results when each line can be read,
no error looks like a heading in the line of its result or like a row behind it, and the
output before the heading adds no row.
-/

namespace SrxProbe.Dashboard

open SrxProbe.Lib SrxProbe.Deploy SrxProbe.Generators

/-! ## The output -/

/-- The lines that the worker reads from the output of its process. -/
def outputLines (output : Bytes) : List PyStr := readText maxLineChars (decodeUtf8 output)

/-- The lines that the worker emits for a command and its output. -/
def workerLines (cmdline : PyStr) (output : Bytes) : List PyStr :=
  ("$ ".toList ++ cmdline) :: outputLines output

/-- The lines in which the report of a result is read. -/
def resultLines (result : WorkloadResult) : List PyStr :=
  readText maxLineChars (printed result.summaryLine)

/-- The lines of a result behind the first one. -/
def laterLines (result : WorkloadResult) : List PyStr := (resultLines result).tail

/-- The lines from the heading of a summary on. -/
def summaryLines (results : List WorkloadResult) : List PyStr :=
  summaryTitle :: rule :: (sortBy WorkloadResult.name results).flatMap resultLines

/-- The lines that `main` prints behind the summary, and those of what comes after it. -/
def laterText (results : List WorkloadResult) (total : Time) (closing : PyStr) : List PyStr :=
  readText maxLineChars (doneText (allResult results total)) ++ readText maxLineChars closing

/-- The lines that are retained from before the heading. -/
def earlierLines (cmdline before : PyStr) (results : List WorkloadResult) (total : Time)
    (closing : PyStr) : List PyStr :=
  ((workerLines cmdline (encodeUtf8 (printed before)) ++ [rule]).map (List.take maxLineChars)).rtake
    (maxLines - (summaryLines results ++ laterText results total closing).length)

section lines

variable {results : List WorkloadResult}

theorem resultLines_eq (result : WorkloadResult) :
    resultLines result = reportLine result :: laterLines result := by
  have hhead : (resultLines result).head? = some (reportLine result) :=
    head?_readText maxLineChars_pos result.summaryLine
  exact (List.eq_cons_of_mem_head? (Option.mem_def.mpr hhead))

theorem hundred_lt_maxLineChars : 100 < maxLineChars := by
  unfold maxLineChars
  decide

theorem length_heading : rule.length < maxLineChars ∧ summaryTitle.length < maxLineChars := by
  unfold maxLineChars
  decide

theorem readText_rule : readText maxLineChars (rule ++ ['\n']) = [rule] := by
  refine readText_line ?_ length_heading.1
  intro c hc
  rw [List.eq_of_mem_replicate hc]
  rfl

theorem readText_title : readText maxLineChars (summaryTitle ++ ['\n']) = [summaryTitle] := by
  have hall : (summaryTitle.all fun c => !isNewline c) = true := rfl
  refine readText_line ?_ length_heading.2
  intro c hc
  simpa using List.all_eq_true.mp hall c hc

/-- The whole output of a suite. -/
def batchText (before : PyStr) (results : List WorkloadResult) (total : Time) (closing : PyStr) :
    PyStr :=
  before ++ (summaryText results ++ (doneText (allResult results total) ++ closing))

theorem doneText_printed (result : WorkloadResult) : ∃ front, doneText result = printed front := by
  unfold doneText
  split
  · exact ⟨_, List.append_nil _⟩
  · exact ⟨_, (List.append_assoc _ _ _).symm⟩

/-- The lines of the results end with a line feed. -/
theorem readText_behindResults (results : List WorkloadResult) (rest : PyStr) :
    readText maxLineChars ((results.flatMap fun result => printed result.summaryLine) ++ rest) =
      results.flatMap resultLines ++ readText maxLineChars rest := by
  induction results with
  | nil => rfl
  | cons result results ih =>
      have hcut : (result :: results).flatMap (fun result => printed result.summaryLine) ++ rest =
          result.summaryLine ++
            '\n' :: ((results.flatMap fun result => printed result.summaryLine) ++ rest) := by
        rw [List.flatMap_cons, printed, List.append_assoc, List.append_assoc]
        rfl
      rw [hcut, readText_lineFeed maxLineChars_pos, ih, List.flatMap_cons, List.append_assoc]
      rfl

/-- The worker reads what was printed before, the rule, the summary, and what is behind it. -/
theorem outputLines_summary (before : PyStr) (results : List WorkloadResult) (total : Time)
    (closing : PyStr) :
    outputLines (encodeUtf8 (batchText before results total closing)) =
      outputLines (encodeUtf8 (printed before)) ++ [rule] ++
        (summaryLines results ++ laterText results total closing) := by
  let rows := (sortBy WorkloadResult.name results).flatMap fun result =>
    printed result.summaryLine
  let rest := doneText (allResult results total) ++ closing
  have htext : summaryText results ++ rest =
      '\n' :: (rule ++ '\n' :: (summaryTitle ++ '\n' :: (rule ++ '\n' :: (rows ++ rest)))) := by
    rw [summaryText, List.append_assoc]
    exact hdr_append summaryTitle (rows ++ rest)
  have hrest : readText maxLineChars rest = laterText results total closing := by
    obtain ⟨front, hfront⟩ := doneText_printed (allResult results total)
    show readText maxLineChars (doneText (allResult results total) ++ closing) = _
    rw [laterText, hfront, printed, List.append_assoc]
    exact readText_lineFeed maxLineChars_pos front closing
  rw [batchText, outputLines, outputLines, decodeUtf8_encodeUtf8, decodeUtf8_encodeUtf8, htext,
    readText_lineFeed maxLineChars_pos before,
    readText_lineFeed maxLineChars_pos rule
      (summaryTitle ++ '\n' :: (rule ++ '\n' :: (rows ++ rest))),
    readText_lineFeed maxLineChars_pos summaryTitle (rule ++ '\n' :: (rows ++ rest)),
    readText_lineFeed maxLineChars_pos rule (rows ++ rest), readText_behindResults, hrest,
    readText_rule, readText_title, List.append_assoc]
  rfl

/-- What a run retains when none of the lines from the heading on is evicted. -/
theorem lines_of_emitted {id cmdline before closing : PyStr} {now total : Time} {ops : List Op}
    {r : Run} (hops : (Run.new id cmdline "all".toList now).execAll ops = .ok r)
    (hread : emitted ops = workerLines cmdline (encodeUtf8 (batchText before results total closing)))
    (hkept : (summaryLines results ++ laterText results total closing).length ≤ maxLines) :
    r.lines.items = earlierLines cmdline before results total closing ++
      (summaryLines results ++ laterText results total closing) := by
  let tail := summaryLines results ++ laterText results total closing
  have hnew := Run.Inv.new id cmdline "all".toList now
  obtain ⟨r', hr', hinv⟩ := hnew.execAll ops
  obtain rfl := Except.ok.inj (hr'.symm.trans hops)
  have hpublished := Run.execAll_lines hnew rfl hops
  have hworker : workerLines cmdline (encodeUtf8 (batchText before results total closing)) =
      (workerLines cmdline (encodeUtf8 (printed before)) ++ [rule]) ++ tail := by
    unfold workerLines
    rw [outputLines_summary, List.cons_append, List.cons_append]
  -- a line that was read is not clipped
  have hshort : ∀ line ∈ tail, line.take maxLineChars = line := by
    intro line hline
    have hmem : line ∈ outputLines (encodeUtf8 (batchText before results total closing)) := by
      rw [outputLines_summary]
      exact List.mem_append_right _ hline
    exact List.take_of_length_le (length_le_of_mem_readText hmem)
  have hwhole : tail.map (List.take maxLineChars) = tail :=
    (List.map_congr_left hshort).trans (List.map_id _)
  have htail : r'.lines.items = _ := hinv.output.tail
  rw [htail, hpublished, hread, hworker, List.map_append, hwhole]
  exact Ring.rtake_append hkept

end lines

/-! ## What survives -/

/-- The retained output of a result can only be read as the report of it. -/
structure Intact (result : WorkloadResult) : Prop where
  readable : Readable result
  untitled : ¬ summaryTitle <:+: reportLine result
  quiet : ∀ line ∈ laterLines result, isRow line = false

/-- The rows are one for each result, in the order of the names, each with the values of
its result, and each is read from the line that reports its result and no row from
another line. -/
def Survives (results : List WorkloadResult) (lines : List PyStr) (rows : List BatchRow) : Prop :=
  ∃ order : List WorkloadResult, order.Perm results ∧
    order.Pairwise (fun result next => result.name < next.name) ∧
    List.Forall₂ SameResult order rows ∧ rowLines lines = order.map reportLine

section survives

variable {results : List WorkloadResult} {earlier : List PyStr} {rows : List BatchRow}

theorem isRow_reportLine_iff {result : WorkloadResult} (h : Reported result) :
    isRow (reportLine result) = true ↔
      Readable result ∧ ¬ summaryTitle <:+: reportLine result := by
  rw [isRow, Bool.and_eq_true, isSome_matchAt_reportLine h, and_comm]
  simp

theorem intact_iff {result : WorkloadResult} (h : Reported result) :
    Intact result ↔ (resultLines result).filter isRow = [reportLine result] := by
  rw [resultLines_eq]
  constructor
  · intro hintact
    have hrow := (isRow_reportLine_iff h).mpr ⟨hintact.readable, hintact.untitled⟩
    rw [List.filter_cons_of_pos hrow, List.filter_eq_nil_iff.mpr]
    intro line hline
    rw [hintact.quiet line hline]
    exact Bool.false_ne_true
  · intro hfilter
    by_cases hrow : isRow (reportLine result) = true
    · rw [List.filter_cons_of_pos hrow, List.cons.injEq, List.filter_eq_nil_iff] at hfilter
      obtain ⟨hreadable, huntitled⟩ := (isRow_reportLine_iff h).mp hrow
      exact ⟨hreadable, huntitled, fun line hline => Bool.eq_false_iff.mpr (hfilter.2 line hline)⟩
    · -- then the only row is the report, which is none
      have hmem : reportLine result ∈ (reportLine result :: laterLines result).filter isRow := by
        rw [hfilter]
        exact List.mem_singleton_self _
      exact absurd (List.of_mem_filter hmem) hrow

/-- Lists that are not empty are at least as many items together. -/
theorem length_flatMap_of_ne_nil {α β : Type} {f : α → List β} {l : List α}
    (h : ∀ a ∈ l, f a ≠ []) : l.length ≤ (l.flatMap f).length ∧
      ((l.flatMap f).length ≤ l.length → ∀ a ∈ l, (f a).length = 1) := by
  induction l with
  | nil => exact ⟨Nat.le_refl 0, fun _ => List.forall_mem_nil _⟩
  | cons a l ih =>
      obtain ⟨hle, hone⟩ := ih fun b hb => h b (List.mem_cons_of_mem a hb)
      have hpos := List.length_pos_of_ne_nil (h a List.mem_cons_self)
      rw [List.flatMap_cons, List.length_append, List.length_cons]
      refine ⟨by omega, fun hlen => List.forall_mem_cons.mpr ⟨by omega, hone (by omega)⟩⟩

theorem isRow_rule : isRow rule = false := by
  have hnone : summaryRe.matchAt [] (strip rule) = none := by
    have hrefuses : Regex.Refuses summaryRe (strip rule) [] := by
      refine Regex.Refuses.cat_cons (Regex.Refuses.chr ?_)
      decide
    rw [Regex.matchAt, hrefuses []]
    rfl
  rw [isRow, hnone, Option.isSome_none, Bool.and_false]

/-- The lines that give rows: those of the results, between those of what was printed before
and behind them. -/
theorem rowLines_summary (earlier later : List PyStr) (results : List WorkloadResult) :
    rowLines (earlier ++ (summaryLines results ++ later)) = rowLines earlier ++
      (((sortBy WorkloadResult.name results).flatMap fun result =>
        (resultLines result).filter isRow) ++ later.filter isRow) := by
  have hrule : ¬ isRow rule = true := Bool.eq_false_iff.mp isRow_rule
  rw [summaryLines, List.cons_append, rowLines_append (List.infix_refl _), List.cons_append,
    List.filter_cons_of_neg hrule, List.filter_append, List.filter_flatMap]

theorem survives_iff {later : List PyStr} (hreported : ∀ result ∈ results, Reported result)
    (hnodup : (results.map WorkloadResult.name).Nodup)
    (hrows : parseBatchFromLines (earlier ++ (summaryLines results ++ later)) = .ok rows) :
    Survives results (earlier ++ (summaryLines results ++ later)) rows ↔
      Quiet earlier ∧ (∀ result ∈ results, Intact result) ∧
        ∀ line ∈ later, isRow line = false := by
  have hsorted : ∀ {result}, result ∈ sortBy WorkloadResult.name results ↔ result ∈ results :=
    mem_sortBy
  constructor
  · rintro ⟨order, hperm, -, -, horder⟩
    have hrow : ∀ result ∈ results, isRow (reportLine result) = true := by
      intro result hresult
      have hmem : reportLine result ∈ rowLines (earlier ++ (summaryLines results ++ later)) := by
        rw [horder]
        exact List.mem_map_of_mem (hperm.mem_iff.mpr hresult)
      exact List.of_mem_filter hmem
    have hblock : ∀ result ∈ results, (resultLines result).filter isRow =
        reportLine result :: (laterLines result).filter isRow := by
      intro result hresult
      rw [resultLines_eq, List.filter_cons_of_pos (hrow result hresult)]
    -- every result has a row of its own, so as many rows as results leave room for no other
    have hlen : (rowLines earlier).length + (((sortBy WorkloadResult.name results).flatMap
        fun result => (resultLines result).filter isRow).length + (later.filter isRow).length) =
        (sortBy WorkloadResult.name results).length := by
      rw [← List.length_append, ← List.length_append, ← rowLines_summary, horder, List.length_map,
        hperm.length_eq, (perm_sortBy WorkloadResult.name results).length_eq]
    obtain ⟨hle, hone⟩ := length_flatMap_of_ne_nil
      (l := sortBy WorkloadResult.name results) (f := fun result => (resultLines result).filter isRow)
      fun result hresult => by
        rw [hblock result (hsorted.mp hresult)]
        exact List.cons_ne_nil _ _
    refine ⟨quiet_iff.mpr (List.length_eq_zero_iff.mp (by omega)), ?_, ?_⟩
    · intro result hresult
      have hsingle := hone (by omega) result (hsorted.mpr hresult)
      rw [intact_iff (hreported result hresult), hblock result hresult]
      rw [hblock result hresult, List.length_cons, Nat.succ_inj,
        List.length_eq_zero_iff] at hsingle
      rw [hsingle]
    · have hnone := List.length_eq_zero_iff.mp (show (later.filter isRow).length = 0 by omega)
      exact fun line hline => Bool.eq_false_iff.mpr (List.filter_eq_nil_iff.mp hnone line hline)
  · rintro ⟨hquiet, hintact, hlater⟩
    -- the rows are the first lines of the blocks, in the order of the summary
    have hlines : rowLines (earlier ++ (summaryLines results ++ later)) =
        (sortBy WorkloadResult.name results).map reportLine := by
      have hnone : later.filter isRow = [] :=
        List.filter_eq_nil_iff.mpr fun line hline => Bool.eq_false_iff.mp (hlater line hline)
      rw [rowLines_summary, quiet_iff.mp hquiet, hnone, List.append_nil, List.nil_append,
        List.map_eq_flatMap]
      apply List.flatMap_congr
      intro result hresult
      have hresult := hsorted.mp hresult
      exact (intact_iff (hreported result hresult)).mp (hintact result hresult)
    refine ⟨_, perm_sortBy WorkloadResult.name results, pairwise_sortBy hnodup, ?_, hlines⟩
    have hread := rows_of_parseBatchFromLines hrows
    rw [hlines, List.forall₂_map_left_iff] at hread
    have hmem : ∀ result ∈ sortBy WorkloadResult.name results, result ∈ results :=
      fun _ => hsorted.mp
    refine ((List.forall₂_and_left _ _).mpr ⟨hmem, hread⟩).imp ?_
    intro result row hboth
    exact sameResult_of_rowOf (hreported result hboth.1) (hintact result hboth.1).readable hboth.2

/-- A row has a bracket. -/
theorem bracket_of_isRow {line : PyStr} (h : isRow line = true) : '[' ∈ line := by
  by_contra hno
  have hrefuses : Regex.Refuses summaryRe (strip line) [] := by
    refine Regex.Refuses.cat_cons (Regex.Refuses.chr ?_)
    intro hhead
    obtain ⟨lead, trail, hline, -⟩ := exists_strip line
    apply hno
    rw [hline]
    exact List.mem_append_right _ (List.mem_append_left _ (List.mem_of_mem_head? hhead))
  have hnone : summaryRe.matchAt [] (strip line) = none := by
    rw [Regex.matchAt, hrefuses []]
    rfl
  rw [isRow, hnone, Option.isSome_none, Bool.and_false] at h
  cases h

/-- The title behind the summary is one line without a bracket, if it is not cut. -/
theorem doneTitle_plain (result : WorkloadResult) :
    ∀ c ∈ doneTitle result, isNewline c = false ∧ c ≠ '[' := by
  have hdigits : ∀ n, ∀ c ∈ Nat.toDigits 10 n, isNewline c = false ∧ c ≠ '[' := by
    intro n c hc
    refine ⟨not_isNewline_toDigits hc, ?_⟩
    rintro rfl
    exact absurd (isDecimal_of_mem_toDigits hc) (by decide)
  have htenths : ∀ c ∈ tenthsText result.elapsed, isNewline c = false ∧ c ≠ '[' := by
    intro c hc
    unfold tenthsText at hc
    rcases List.mem_append.mp hc with hc | hc
    · rcases List.mem_append.mp hc with hc | hc
      · split at hc
        · rw [List.mem_singleton.mp hc]
          exact ⟨rfl, by decide⟩
        · cases hc
      · exact hdigits _ c hc
    · rcases List.mem_cons.mp hc with rfl | hc
      · exact ⟨rfl, by decide⟩
      · exact hdigits _ c hc
  have hplain : ∀ s : PyStr, s.all (fun c => !isNewline c && c != '[') = true →
      ∀ c ∈ s, isNewline c = false ∧ c ≠ '[' := by
    intro s hs c hc
    simpa using List.all_eq_true.mp hs c hc
  have hstatus : ∀ c ∈ result.executionStatus, isNewline c = false ∧ c ≠ '[' := by
    unfold WorkloadResult.executionStatus
    split <;> exact hplain _ (by decide)
  have hfront := hplain "DONE in ".toList (by decide)
  have hmiddle := hplain "s; execution=".toList (by decide)
  have hback := hplain "; detection=not_evaluated".toList (by decide)
  intro c hc
  unfold doneTitle at hc
  simp only [List.mem_append] at hc
  rcases hc with hc | hc | hc | hc | hc
  · exact hfront c hc
  · exact htenths c hc
  · exact hmiddle c hc
  · exact hstatus c hc
  · exact hback c hc

/-- The error that `main` prints for a suite with failures is no row. -/
theorem isRow_failed : isRow "[ERR] process exited with status 1".toList = false := by
  decide

/-- The lines that `main` prints behind the summary. -/
theorem readText_doneText (results : List WorkloadResult) (total : Time) :
    readText maxLineChars (doneText (allResult results total)) =
      [] :: rule :: (linePieces maxLineChars (doneTitle (allResult results total)) ++ rule ::
        if (allResult results total).error = [] then []
        else ["[ERR] process exited with status 1".toList]) := by
  have hnil : linePieces maxLineChars [] = [[]] := linePieces_short maxLineChars_pos
  have hrule : linePieces maxLineChars rule = [rule] := linePieces_short length_heading.1
  have hsolid : ∀ c ∈ rule, isNewline c = false := by
    intro c hc
    rw [List.eq_of_mem_replicate hc]
    rfl
  have htext : doneText (allResult results total) =
      '\n' :: (rule ++ '\n' :: (doneTitle (allResult results total) ++ '\n' :: (rule ++ '\n' ::
        if (allResult results total).error = [] then []
        else printed ("[ERR] ".toList ++ (allResult results total).error)))) := hdr_append _ _
  have herror : readText maxLineChars (if (allResult results total).error = [] then []
      else printed ("[ERR] ".toList ++ (allResult results total).error)) =
      if (allResult results total).error = [] then []
      else ["[ERR] process exited with status 1".toList] := by
    rcases error_allResult results total with hnone | hfailed
    · rw [if_pos hnone, if_pos hnone]
      rfl
    · rw [hfailed, if_neg (by decide), if_neg (by decide)]
      refine readText_line (solid_of_all (by decide)) ?_
      exact Nat.lt_trans (by decide) hundred_lt_maxLineChars
  have hempty : ∀ c ∈ ([] : PyStr), isNewline c = false := List.forall_mem_nil _
  have hfirst := readText_pieces maxLineChars_pos hempty
    (rule ++ '\n' :: (doneTitle (allResult results total) ++ '\n' :: (rule ++ '\n' ::
        if (allResult results total).error = [] then []
        else printed ("[ERR] ".toList ++ (allResult results total).error))))
  rw [htext]
  refine hfirst.trans ?_
  rw [hnil, readText_pieces maxLineChars_pos hsolid, hrule,
    readText_pieces maxLineChars_pos fun c hc => (doneTitle_plain _ c hc).1,
    readText_pieces maxLineChars_pos hsolid, hrule, herror]
  rfl

/-- What `main` prints behind the summary adds no row. -/
theorem not_isRow_done (results : List WorkloadResult) (total : Time) :
    ∀ line ∈ readText maxLineChars (doneText (allResult results total)), isRow line = false := by
  have hplain : ∀ line, '[' ∉ line → ∀ piece ∈ linePieces maxLineChars line,
      isRow piece = false := by
    intro line hno piece hpiece
    refine Bool.eq_false_iff.mpr fun hrow => hno ?_
    exact subset_of_mem_linePieces hpiece (bracket_of_isRow hrow)
  have htitle : '[' ∉ doneTitle (allResult results total) :=
    fun hmem => (doneTitle_plain _ _ hmem).2 rfl
  rw [readText_doneText results total]
  intro line hline
  simp only [List.mem_cons, List.mem_append] at hline
  rcases hline with rfl | rfl | hline | rfl | hline
  · decide
  · exact isRow_rule
  · exact hplain _ htitle line hline
  · exact isRow_rule
  · split at hline
    · cases hline
    · rw [List.mem_singleton.mp hline]
      exact isRow_failed

/-- A short line whose error has nothing of a heading in it is read as it was printed. -/
theorem intact_of_oneLine {result : WorkloadResult} (h : Reported result)
    (hline : ∀ c ∈ result.summaryLine, isNewline c = false)
    (hlen : result.summaryLine.length < maxLineChars)
    (hseen : result.error ≠ [] → ¬ Blank result.error)
    (htitle : ¬ summaryTitle <:+: result.summaryLine) :
    Intact result ∧ resultLines result = [result.summaryLine] := by
  have hfirst : firstLine result.summaryLine = result.summaryLine :=
    List.takeWhile_eq_self_iff.mpr fun c hc => by rw [hline c hc]; rfl
  have hreport : reportLine result = result.summaryLine := by
    rw [reportLine, hfirst, List.take_of_length_le (Nat.le_of_lt hlen)]
  have hlines : resultLines result = [result.summaryLine] := readText_line hline hlen
  have hparts : result.summaryLine.length = result.headText.length + 24 +
      result.detailText.length := by
    have hmark : (" detection=".toList).length = 11 := rfl
    have hvalue : ("not_evaluated".toList).length = 13 := rfl
    rw [WorkloadResult.summaryLine, h.detectionStatus, List.length_append, List.length_append,
      List.length_append, hmark, hvalue]
    omega
  refine ⟨⟨⟨by omega, .inr (by omega), ?_⟩, by rwa [hreport], ?_⟩, hlines⟩
  · intro herror _ hblank
    have hdetail : result.detailText = " - ".toList ++ result.error := if_neg herror
    have hdash : (" - ".toList).length = 3 := rfl
    have herr : ∀ c ∈ result.error, isNewline c = false := by
      intro c hc
      apply hline
      rw [WorkloadResult.summaryLine, hdetail]
      simp [hc]
    rw [hdetail, List.length_append, hdash] at hparts
    have hfirstError : firstLine result.error = result.error :=
      List.takeWhile_eq_self_iff.mpr fun c hc => by rw [herr c hc]; rfl
    rw [hfirstError, List.take_of_length_le (by omega)] at hblank
    exact hseen herror hblank
  · intro line hmem
    rw [laterLines, hlines] at hmem
    cases hmem

end survives

/-! ## Batches -/

/-- A batch about to finish, whose worker has read the summary of a suite between what was
printed before and what `main` prints behind it, with whatever closes the output (nothing,
or what `ssh` prints at the end), and whose run retains the lines from the heading on. -/
structure Summarised (a : Namespace) (cmdline before : PyStr) (results : List WorkloadResult)
    (total : Time) (closing : PyStr) (b : BatchRun) : Prop where
  suite : SuiteResults a results
  elapsed : ∀ result ∈ results, 0 ≤ result.elapsed
  run : ∃ id now ops, (Run.new id cmdline "all".toList now).execAll ops = .ok b.run ∧
    emitted ops = workerLines cmdline (encodeUtf8 (batchText before results total closing))
  kept : (summaryLines results ++ laterText results total closing).length ≤ maxLines

section batch

variable {a : Namespace} {cmdline before closing : PyStr} {results : List WorkloadResult}
  {total : Time} {b : BatchRun}

theorem Summarised.reported (h : Summarised a cmdline before results total closing b) :
    ∀ result ∈ results, Reported result := fun result hresult =>
  ⟨h.suite.plain result hresult, h.elapsed result hresult,
    h.suite.detectionStatus result hresult⟩

theorem Summarised.lines (h : Summarised a cmdline before results total closing b) :
    b.run.lines.items = earlierLines cmdline before results total closing ++
      (summaryLines results ++ laterText results total closing) := by
  obtain ⟨id, now, ops, hops, hread⟩ := h.run
  exact lines_of_emitted hops hread h.kept

/-- **When the summary of a batch survives the text channel.** The rows that are stored
are those of the results if and only if the retained output before the heading adds none,
each line can still be read where it is cut off, no error puts the heading into the line
of its result, none of its later lines is a row, and neither is a line that closes the
output behind what `main` prints. -/
theorem batch_summary_survives (h : Summarised a cmdline before results total closing b)
    (rc : Int) (now later : Time) :
    Survives results b.run.lines.items (b.entry rc now later).results ↔
      Quiet (earlierLines cmdline before results total closing) ∧
        (∀ result ∈ results, Intact result) ∧
        ∀ line ∈ readText maxLineChars closing, isRow line = false := by
  have hentry := b.batchEntry_eq rc now later
  obtain ⟨rows, hrows, hentry⟩ := bind_ok_iff.mp hentry
  have hresults : (b.entry rc now later).results = rows := by
    rw [← Except.ok.inj hentry]
  have hlines : (b.ended rc now).lines.items = _ := h.lines
  rw [hlines] at hrows
  rw [hresults, h.lines, survives_iff h.reported h.suite.nodup hrows]
  -- the lines of `main` itself are no rows
  have hlater : (∀ line ∈ laterText results total closing, isRow line = false) ↔
      ∀ line ∈ readText maxLineChars closing, isRow line = false := by
    unfold laterText
    rw [List.forall_mem_append]
    exact and_iff_right (not_isRow_done results total)
  rw [hlater]

end batch

/-! ## Two suites -/

/-- Any lines can be those that a batch has emitted. -/
theorem exists_batch (cmdline : PyStr) (lines : List PyStr) :
    ∃ b : BatchRun, ∃ id now ops, (Run.new id cmdline "all".toList now).execAll ops = .ok b.run ∧
      emitted ops = lines := by
  have hemits : ∀ (lines : List PyStr) (r : Run), r.Inv → r.terminal = none →
      ∃ r', r.execAll (lines.map Op.emit) = .ok r' ∧ r'.Inv ∧ r'.terminal = none ∧
        r'.workload = r.workload := by
    intro lines
    induction lines with
    | nil => exact fun r hinv hterm => ⟨r, rfl, hinv, hterm, rfl⟩
    | cons line lines ih =>
        intro r hinv hterm
        have hemit : r.exec (.emit line) = .ok (r.afterEmit line) := by
          show r.emit line = _
          rw [Run.emit_eq r line hinv.subs.nodup, hterm]
          rfl
        obtain ⟨r', hr', hrest⟩ := ih _ (hinv.exec_ok hemit) hterm
        refine ⟨r', ?_, hrest⟩
        rw [List.map_cons, Run.execAll, List.foldlM_cons, hemit]
        exact hr'
  have hnew := Run.Inv.new [] cmdline "all".toList 0
  obtain ⟨r, hr, hinv, hterm, hworkload⟩ := hemits lines _ hnew rfl
  refine ⟨⟨r, hinv, hworkload, hterm⟩, [], 0, lines.map Op.emit, hr, ?_⟩
  clear hr
  induction lines with
  | nil => rfl
  | cons line lines ih => exact congrArg (line :: ·) (ih)

/-- The arguments of a suite. -/
def suiteArgs : Namespace :=
  ⟨.all, setAttrs [("duration".toList, .int 60), ("target".toList, .str "10.0.0.5".toList)]
    fun _ => none, none⟩

/-- The results of a suite whose functions end with these outcomes, each at once. -/
def resultsOf (outcome : Nat → Deploy.Outcome) : List WorkloadResult :=
  (List.range 18).map fun i => runWorkload ((suiteNames[i]?).getD []) (outcome i) 0

theorem suiteResults_resultsOf (outcome : Nat → Deploy.Outcome) :
    SuiteResults suiteArgs (resultsOf outcome) := by
  obtain ⟨workloads, hbuild⟩ : ∃ workloads, buildAllWorkloads suiteArgs = .ok workloads := by
    have hplain : ∀ c ∈ "10.0.0.5".toList, isPlain c = true := List.all_eq_true.mp rfl
    exact (buildAllWorkloads_ok_iff rfl rfl rfl (by decide) (by decide) rfl).mpr
      ((httpPort_ok_iff hplain rfl).mpr (.inl rfl))
  obtain ⟨s, hs, hreturned⟩ := exists_returned _ _ outcome (fun _ => 0) (checked_suite hbuild)
  obtain ⟨⟨duration, -, rfl⟩, -⟩ := buildAllWorkloads_eq hbuild
  exact ⟨_, s, hbuild, hs, hreturned⟩

theorem tenthsText_zero : tenthsText 0 = "0.0".toList := by
  have hround : roundHalfEven 0 = 0 := by
    have hfloor : Rat.floor 0 = 0 := rfl
    simp only [roundHalfEven, hfloor]
    rw [if_pos (by norm_num)]
  simp [tenthsText, hround]

/-- The line of a workload that returned 0 at once. -/
theorem summaryLine_succeeded (name : PyStr) :
    (runWorkload name (.returned (.value (.int 0))) 0).summaryLine =
      "[SUCCEEDED] ".toList ++
        (name ++ ": rc=0 elapsed=0.0s detection=not_evaluated".toList) := by
  simp [runWorkload, returnedResult, Returned.status, Returned.error, WorkloadResult.summaryLine,
    WorkloadResult.headText, WorkloadResult.statusText, WorkloadResult.detailText,
    tenthsText_zero, intText]

theorem length_flatMap_le_of_le {α β : Type} {f : α → List β} {l : List α} {n : Nat}
    (h : ∀ a ∈ l, (f a).length ≤ n) : (l.flatMap f).length ≤ l.length * n := by
  induction l with
  | nil => exact Nat.zero_le _
  | cons a l ih =>
      have hrest := ih fun b hb => h b (List.mem_cons_of_mem a hb)
      have hfirst := h a List.mem_cons_self
      rw [List.flatMap_cons, List.length_append, List.length_cons, Nat.succ_mul]
      omega

/-- Behind the summary are at most five lines. -/
theorem length_laterText (results : List WorkloadResult) :
    (laterText results 0 []).length ≤ 5 := by
  have htitle : (doneTitle (allResult results 0)).length < maxLineChars := by
    have hlen : (doneTitle (allResult results 0)).length ≤ 100 := by
      unfold doneTitle WorkloadResult.executionStatus
      rw [elapsed_allResult, tenthsText_zero]
      split <;> decide
    exact Nat.lt_of_le_of_lt hlen hundred_lt_maxLineChars
  unfold laterText
  rw [readText_doneText, linePieces_short htitle]
  split <;> exact Nat.le_of_ble_eq_true rfl

theorem kept_of_length {results : List WorkloadResult} (hlen : results.length = 18)
    (h : ∀ result ∈ results, (resultLines result).length ≤ 2) :
    (summaryLines results ++ laterText results 0 []).length ≤ maxLines := by
  have hsum : ((sortBy WorkloadResult.name results).flatMap resultLines).length ≤ 18 * 2 := by
    have hle := length_flatMap_le_of_le (f := resultLines) (l := sortBy WorkloadResult.name results)
      fun result hresult => h result (mem_sortBy.mp hresult)
    rwa [(perm_sortBy _ results).length_eq, hlen] at hle
  have hmax : 43 ≤ maxLines := by
    unfold maxLines
    decide
  have hlater := length_laterText results
  simp only [summaryLines, List.cons_append, List.length_cons, List.length_append]
  omega

theorem intact_succeeded {name : PyStr} (hname : name ∈ suiteNames) :
    Intact (runWorkload name (.returned (.value (.int 0))) 0) ∧
      resultLines (runWorkload name (.returned (.value (.int 0))) 0) =
        [(runWorkload name (.returned (.value (.int 0))) 0).summaryLine] := by
  have hall : (suiteNames.all fun name =>
      name.length ≤ 20 && name.all fun c => !isNewline c && c != 'W') = true := rfl
  have hname' := List.all_eq_true.mp hall name hname
  simp only [Bool.and_eq_true, decide_eq_true_eq, List.all_eq_true, Bool.not_eq_true',
    bne_iff_ne] at hname'
  have hfront : ∀ c ∈ "[SUCCEEDED] ".toList, isNewline c = false ∧ c ≠ 'W' := by
    simp [isNewline]
  have hback : ∀ c ∈ ": rc=0 elapsed=0.0s detection=not_evaluated".toList,
      isNewline c = false ∧ c ≠ 'W' := by
    simp [isNewline]
  have hline : ∀ c ∈ "[SUCCEEDED] ".toList ++
      (name ++ ": rc=0 elapsed=0.0s detection=not_evaluated".toList),
      isNewline c = false ∧ c ≠ 'W' := by
    intro c hc
    rcases List.mem_append.mp hc with hc | hc
    · exact hfront c hc
    · rcases List.mem_append.mp hc with hc | hc
      · exact hname'.2 c hc
      · exact hback c hc
  have hreported : Reported (runWorkload name (.returned (.value (.int 0))) 0) :=
    ⟨suiteNames_plain name hname, Rat.le_refl, rfl⟩
  apply intact_of_oneLine hreported
  · rw [summaryLine_succeeded]
    exact fun c hc => (hline c hc).1
  · rw [summaryLine_succeeded]
    have hlen := hname'.1
    have hlens : ("[SUCCEEDED] ".toList).length = 12 ∧
        (": rc=0 elapsed=0.0s detection=not_evaluated".toList).length = 43 := ⟨rfl, rfl⟩
    have := hundred_lt_maxLineChars
    rw [List.length_append, List.length_append, hlens.1, hlens.2]
    omega
  · exact fun h => absurd rfl h
  · rw [summaryLine_succeeded]
    intro htitle
    exact (hline 'W' (htitle.subset (by decide))).2 rfl

/-- The command itself is no heading, and neither is the rule. -/
theorem quiet_earlierLines (results : List WorkloadResult) (total : Time) (closing : PyStr) :
    Quiet (earlierLines "srx-workload".toList [] results total closing) := by
  have houtput : outputLines (encodeUtf8 (printed [])) = [[]] := by
    rw [outputLines, decodeUtf8_encodeUtf8]
    exact readText_line (List.forall_mem_nil _) maxLineChars_pos
  have hplain : ∀ line ∈ workerLines "srx-workload".toList (encodeUtf8 (printed [])) ++ [rule],
      'W' ∉ line := by
    rw [workerLines, houtput]
    decide
  rintro front heading back hlines hheading
  have hmem : heading ∈ earlierLines "srx-workload".toList [] results total closing := by
    rw [hlines]
    exact List.mem_append_right _ List.mem_cons_self
  obtain ⟨line, hline, rfl⟩ := List.mem_map.mp (List.mem_of_mem_drop hmem)
  exact absurd (List.mem_of_mem_take (hheading.subset (by decide))) (hplain line hline)

/-- A suite whose functions end with these outcomes, and that prints nothing else. -/
theorem exists_summarised (outcome : Nat → Deploy.Outcome)
    (h : ∀ result ∈ resultsOf outcome, (resultLines result).length ≤ 2) :
    ∃ b, Summarised suiteArgs "srx-workload".toList [] (resultsOf outcome) 0 [] b := by
  obtain ⟨b, hrun⟩ := exists_batch "srx-workload".toList
    (workerLines "srx-workload".toList (encodeUtf8 (batchText [] (resultsOf outcome) 0 [])))
  refine ⟨b, suiteResults_resultsOf outcome, ?_, hrun, kept_of_length (List.length_map _) h⟩
  intro result hresult
  obtain ⟨i, -, rfl⟩ := List.mem_map.mp hresult
  rw [elapsed_runWorkload]

theorem mem_resultsOf {outcome : Nat → Deploy.Outcome} {result : WorkloadResult}
    (h : result ∈ resultsOf outcome) :
    ∃ i, ∃ name ∈ suiteNames, suiteNames[i]? = some name ∧
      result = runWorkload name (outcome i) 0 := by
  obtain ⟨i, hi, rfl⟩ := List.mem_map.mp h
  have hlt : i < suiteNames.length := List.mem_range.mp hi
  refine ⟨i, suiteNames[i], List.getElem_mem hlt, List.getElem?_eq_getElem hlt, ?_⟩
  rw [List.getElem?_eq_getElem hlt, Option.getD_some]

/-- Every function of the suite returned 0 at once. -/
def allSucceeded : Nat → Deploy.Outcome := fun _ => .returned (.value (.int 0))

/-- The rows of a suite that succeeded are stored as they are. -/
theorem batch_summary_survives_succeeded :
    ∃ b : BatchRun, Survives (resultsOf allSucceeded) b.run.lines.items (b.entry 0 1 1).results := by
  have hintact : ∀ result ∈ resultsOf allSucceeded, Intact result ∧
      resultLines result = [result.summaryLine] := by
    intro result hresult
    obtain ⟨i, name, hname, -, rfl⟩ := mem_resultsOf hresult
    exact intact_succeeded hname
  obtain ⟨b, h⟩ := exists_summarised allSucceeded fun result hresult => by
    rw [(hintact result hresult).2]
    exact Nat.le_succ 1
  exact ⟨b, (batch_summary_survives h 0 1 1).mpr
    ⟨quiet_earlierLines _ _ _, fun result hresult => (hintact result hresult).1,
      List.forall_mem_nil _⟩⟩

/-- The first scan failed with two lines of output, the second of which looks like the
report of another workload. -/
def forgedRow (i : Nat) : Deploy.Outcome :=
  if i = 5 then
    .returned (.command
      ⟨1, "refused".toList ++ '\n' :: "[SUCCEEDED] dns: rc=0 elapsed=0.0s".toList, []⟩)
  else .returned (.value (.int 0))

/-- A line that ends behind the elapsed time is a row as well. -/
theorem isRow_headText {result : WorkloadResult} (h : Reported result)
    (htitle : ¬ summaryTitle <:+: result.headText) : isRow result.headText = true := by
  have hmatch := Regex.matchAt_of_eats [] (eats_summary h.name h.elapsed eats_tail_nil)
  have hstrip : strip (result.headText ++ []) = result.headText ++ [] := strip_headText []
  rw [List.append_nil] at hmatch
  rw [List.append_nil] at hmatch hstrip
  rw [isRow, hstrip, hmatch, decide_eq_false htitle]
  rfl

/-- The report of the scan, and the line that its error adds. -/
theorem resultLines_forged : resultLines (runWorkload "scan-syn".toList (forgedRow 5) 0) =
    ["[FAILED] scan-syn: rc=1 elapsed=0.0s detection=not_evaluated - refused".toList,
      "[SUCCEEDED] dns: rc=0 elapsed=0.0s".toList] := by
  have hline : printed (runWorkload "scan-syn".toList (forgedRow 5) 0).summaryLine =
      "[FAILED] scan-syn: rc=1 elapsed=0.0s detection=not_evaluated - refused".toList ++
        '\n' :: ("[SUCCEEDED] dns: rc=0 elapsed=0.0s".toList ++ ['\n']) := by
    simp [printed, runWorkload, forgedRow, returnedResult, Returned.status, Returned.error,
      WorkloadResult.summaryLine, WorkloadResult.headText, WorkloadResult.statusText,
      WorkloadResult.detailText, tenthsText_zero, intText]
    rfl
  have hshort := hundred_lt_maxLineChars
  rw [resultLines, hline, readText_lineFeed maxLineChars_pos,
    readText_line (solid_of_all (by decide)) (Nat.lt_trans (by decide) hshort),
    readText_line (solid_of_all (by decide)) (Nat.lt_trans (by decide) hshort)]
  rfl

/-- The report is a row, as that of an error of one line is. -/
theorem isRow_refused :
    isRow "[FAILED] scan-syn: rc=1 elapsed=0.0s detection=not_evaluated - refused".toList = true := by
  have hreported :
      Reported ⟨"scan-syn".toList, 1, 0, "refused".toList, "not_evaluated".toList, []⟩ :=
    ⟨suiteNames_plain _ (by decide), Rat.le_refl, rfl⟩
  have hline : (⟨"scan-syn".toList, 1, 0, "refused".toList, "not_evaluated".toList, []⟩ :
      WorkloadResult).summaryLine =
      "[FAILED] scan-syn: rc=1 elapsed=0.0s detection=not_evaluated - refused".toList := by
    simp [WorkloadResult.summaryLine, WorkloadResult.headText, WorkloadResult.statusText,
      WorkloadResult.detailText, tenthsText_zero, intText]
    rfl
  obtain ⟨hintact, hlines⟩ := intact_of_oneLine hreported
    (by rw [hline]; exact solid_of_all (by decide))
    (by rw [hline]; exact Nat.lt_trans (by decide) hundred_lt_maxLineChars)
    (fun _ => not_blank_of_solid (by simp [isSpace]) (by decide))
    (by
      rw [hline]
      exact fun h => absurd (h.subset (show 'W' ∈ summaryTitle by decide)) (by decide))
  have hreport := (isRow_reportLine_iff hreported).mpr ⟨hintact.readable, hintact.untitled⟩
  rw [resultLines_eq, List.cons.injEq] at hlines
  rwa [hlines.1, hline] at hreport

/-- The line of the error looks like what the report of another workload begins with. -/
theorem isRow_forged : isRow "[SUCCEEDED] dns: rc=0 elapsed=0.0s".toList = true := by
  have hhead : (runWorkload "dns".toList (.returned (.value (.int 0))) 0).headText =
      "[SUCCEEDED] dns: rc=0 elapsed=0.0s".toList := by
    simp [runWorkload, returnedResult, Returned.status, WorkloadResult.headText,
      WorkloadResult.statusText, tenthsText_zero, intText]
  have hreported : Reported (runWorkload "dns".toList (.returned (.value (.int 0))) 0) :=
    ⟨suiteNames_plain _ (by decide), Rat.le_refl, rfl⟩
  have hrow := isRow_headText hreported (by
    rw [hhead]
    exact fun htitle => absurd (htitle.subset (show 'W' ∈ summaryTitle by decide)) (by decide))
  rwa [hhead] at hrow

/-- The history stores more rows than there are results. -/
theorem forged_row_stored :
    ∃ b : BatchRun, Summarised suiteArgs "srx-workload".toList [] (resultsOf forgedRow) 0 [] b ∧
      ¬ ∃ order : List WorkloadResult, order.Perm (resultsOf forgedRow) ∧
        List.Forall₂ SameResult order (b.entry 1 1 1).results := by
  have hlines : ∀ result ∈ resultsOf forgedRow, (resultLines result).length ≤ 2 ∧
      (resultLines result).filter isRow ≠ [] := by
    intro result hresult
    obtain ⟨i, name, hname, hi, rfl⟩ := mem_resultsOf hresult
    by_cases hscan : i = 5
    · subst hscan
      cases hi
      rw [resultLines_forged, List.filter_cons_of_pos isRow_refused]
      exact ⟨Nat.le_refl 2, List.cons_ne_nil _ _⟩
    · have hreported : Reported (runWorkload name (.returned (.value (.int 0))) 0) :=
        ⟨suiteNames_plain name hname, Rat.le_refl, rfl⟩
      obtain ⟨hintact, hsingle⟩ := intact_succeeded hname
      rw [show forgedRow i = .returned (.value (.int 0)) from if_neg hscan,
        (intact_iff hreported).mp hintact, hsingle]
      exact ⟨Nat.le_succ 1, List.cons_ne_nil _ _⟩
  obtain ⟨b, h⟩ := exists_summarised forgedRow fun result hresult => (hlines result hresult).1
  refine ⟨b, h, ?_⟩
  rintro ⟨order, hperm, hsame⟩
  obtain ⟨rows, hrows, hentry⟩ := bind_ok_iff.mp (b.batchEntry_eq 1 1 1)
  have hrun : (b.ended 1 1).lines.items = _ := h.lines
  rw [hrun] at hrows
  rw [← Except.ok.inj hentry] at hsame
  have hstored : List.Forall₂ SameResult order rows := hsame
  -- as many rows as there are results would be one for each of them
  have hcount : ((sortBy WorkloadResult.name (resultsOf forgedRow)).flatMap fun result =>
      (resultLines result).filter isRow).length ≤
      (sortBy WorkloadResult.name (resultsOf forgedRow)).length := by
    have hlen := (rows_of_parseBatchFromLines hrows).length_eq
    rw [rowLines_summary, List.length_append, List.length_append] at hlen
    have := hstored.length_eq
    have := hperm.length_eq
    have := (perm_sortBy WorkloadResult.name (resultsOf forgedRow)).length_eq
    omega
  have hfirst : runWorkload "scan-syn".toList (forgedRow 5) 0 ∈ resultsOf forgedRow :=
    List.mem_map.mpr ⟨5, List.mem_range.mpr (by decide), rfl⟩
  have hone := (length_flatMap_of_ne_nil fun result hresult =>
    (hlines result (mem_sortBy.mp hresult)).2).2 hcount _ (mem_sortBy.mpr hfirst)
  rw [resultLines_forged, List.filter_cons_of_pos isRow_refused,
    List.filter_cons_of_pos isRow_forged] at hone
  cases hone

end SrxProbe.Dashboard
