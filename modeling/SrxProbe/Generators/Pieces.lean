import SrxProbe.Generators.CrawlPage

/-!
# Text in pieces

`handle_data` is called for a text as it arrives: `crawl_page` cuts a page of plain text into
pieces of 16 KiB, and an HTML parser hands on what it has. Wherever the cuts are, also inside
a run of white space or where a limit is reached, the parser ends up as after one call with
the whole text.
-/

namespace SrxProbe.Generators

open SrxProbe.Lib

namespace PageParser

variable {limits : Limits} {p : PageParser} {data : PyStr}

/-! ## One call -/

theorem collapse_isEmpty (data : PyStr) : (collapse data).isEmpty = data.isEmpty := by
  rw [collapse_eq, Bool.eq_iff_iff, List.isEmpty_iff, List.isEmpty_iff, squeeze_eq_nil]

@[simp] theorem handleData_nil (limits : Limits) (p : PageParser) :
    p.handleData limits [] = p := by
  simp [handleData, collapse_isEmpty]

theorem handleData_hidden (h : p.hidden ≠ []) (data : PyStr) : p.handleData limits data = p := by
  simp [handleData, h]

/-- A text under a title is put behind the title. -/
theorem handleData_title (h : p.hidden = []) (htitle : p.inTitle = true) (hdata : data ≠ []) :
    p.handleData limits data = { p with
      title := clip limits.title (combine p.title (collapse data))
      outputTruncated := p.outputTruncated ||
        !within limits.title (combine p.title (collapse data)).length } := by
  simp [handleData, collapse_isEmpty, h, htitle, hdata]

/-- Any other text is put behind the text. -/
theorem handleData_text (h : p.hidden = []) (htitle : p.inTitle = false) (hdata : data ≠ []) :
    p.handleData limits data = { p with
      text := clip limits.text (combine p.text (collapse data))
      outputTruncated := p.outputTruncated ||
        !within limits.text (combine p.text (collapse data)).length } := by
  simp [handleData, collapse_isEmpty, h, htitle, hdata]

/-! ## Two calls -/

theorem combine_collapse (old text more : PyStr) :
    combine (combine old (collapse text)) (collapse more) =
      combine old (collapse (text ++ more)) := by
  simp only [combine_eq, collapse_eq, squeeze_append, glue_assoc]

/-- What the limit cuts off the first text, it cuts off both. -/
theorem clip_combine (limit : Option Nat) (old text more : PyStr) :
    clip limit (combine (clip limit (combine old (collapse text))) (collapse more)) =
      clip limit (combine old (collapse (text ++ more))) := by
  rw [← combine_collapse]
  cases limit with
  | none => rfl
  | some n =>
      simp only [clip, combine_eq]
      exact take_glue_take n _ _

/-- The limit is passed by one of the texts when it is passed by both together. -/
theorem within_combine (limit : Option Nat) (old text more : PyStr) :
    (!within limit (combine old (collapse text)).length ||
      !within limit
        (combine (clip limit (combine old (collapse text))) (collapse more)).length) =
      !within limit (combine old (collapse (text ++ more))).length := by
  rw [← combine_collapse]
  cases limit with
  | none => rfl
  | some n =>
      simp only [within, clip, combine_eq, Option.all_some, ← decide_not, Nat.not_le,
        ← Bool.decide_or, lt_length_glue_take]

/-- **Two texts are one.** -/
theorem handleData_append (limits : Limits) (p : PageParser) (text more : PyStr) :
    (p.handleData limits text).handleData limits more = p.handleData limits (text ++ more) := by
  by_cases htext : text = []
  · simp [htext]
  by_cases hmore : more = []
  · simp [hmore]
  have hboth : text ++ more ≠ [] := List.append_ne_nil_of_left_ne_nil htext more
  by_cases hhidden : p.hidden = []
  · cases htitle : p.inTitle with
    | true =>
        simp only [handleData_title, hhidden, htitle, htext, hmore, hboth, ne_eq, not_false_eq_true,
          clip_combine, Bool.or_assoc, within_combine]
    | false =>
        simp only [handleData_text, hhidden, htitle, htext, hmore, hboth, ne_eq, not_false_eq_true,
          clip_combine, Bool.or_assoc, within_combine]
  · simp only [handleData_hidden hhidden]

end PageParser

/-- **A text may be cut anywhere.** From any state, the pieces one after the other leave the
title, the text and the flag, and all else, as the whole text does. -/
theorem pieces_as_whole (p : PageParser) (pieces : List PyStr) :
    pieces.foldl (PageParser.handleData pageLimits) p =
      p.handleData pageLimits pieces.flatten := by
  induction pieces generalizing p with
  | nil => simp
  | cons piece pieces ih =>
      rw [List.foldl_cons, ih, PageParser.handleData_append, List.flatten_cons]

/-! ## Plain text -/

/-- What a decoder makes of the pieces of a body, put together. -/
def Decoder.decodeAll (decoder : Decoder) :
    (earlier : List Bytes) → List (Bytes × Bool) → Except (Raises codecRaises) PyStr
  | _, [] => .ok []
  | earlier, piece :: rest => do
      let text ← decoder.decode earlier piece.1 piece.2
      let more ← decoder.decodeAll (earlier ++ [piece.1]) rest
      .ok (text ++ more)

/-- The loop over the pieces of a page of plain text, when it comes to its end, has called
`handle_data` as for the decoded body in one piece. -/
theorem decodeSteps_plain {w : World} {d : Deadline} {decoder : Decoder}
    {pieces : List (Bytes × Bool)} {s s' : Extraction}
    (h : pieces.foldlM (decodeStep w d true decoder) s = .ok s') :
    ∃ text, decoder.decodeAll s.earlier pieces = .ok text ∧
      s'.parser = s.parser.handleData pageLimits text := by
  induction pieces generalizing s with
  | nil =>
      cases h
      exact ⟨[], rfl, (PageParser.handleData_nil _ _).symm⟩
  | cons piece pieces ih =>
      rw [List.foldlM_cons] at h
      obtain ⟨next, hstep, h⟩ := bind_ok_iff.mp h
      obtain ⟨more, hmore, hparser⟩ := ih h
      unfold decodeStep at hstep
      split at hstep
      · cases hstep
      split at hstep
      · cases hstep
      next text htext =>
        cases hstep
        refine ⟨text ++ more, ?_, ?_⟩
        · rw [Decoder.decodeAll, htext, ok_bind, hmore, ok_bind]
        · rw [hparser, PageParser.handleData_append]

end SrxProbe.Generators
