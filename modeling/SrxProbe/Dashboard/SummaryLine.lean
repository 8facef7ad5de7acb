import SrxProbe.Dashboard.Batch
import SrxProbe.Deploy.Summary
import SrxProbe.Lib.Lines

/-!
# A line of the summary, read back

The dashboard's pattern against the line that the CLI prints for a result. It matches
what is left of the line when that goes on behind the elapsed time with nothing, with a
detection status, or with a detection status and an error, and then it captures the
values of the result.
-/

namespace SrxProbe.Dashboard

open SrxProbe.Lib SrxProbe.Deploy

/-! ## Numbers -/

/-- The two numbers around the decimal point. -/
theorem tenthsText_eq {x : Rat} (h : 0 ≤ x) : ∃ whole fraction,
    tenthsText x = Nat.toDigits 10 whole ++ '.' :: Nat.toDigits 10 fraction := by
  simp only [tenthsText, if_neg (Rat.not_lt.mpr h)]
  exact ⟨_, _, rfl⟩

/-! ## The pattern matches -/

section eats

open Regex

/-- The optional detection status. -/
def detectionRe : Regex := alt (cat [lit " detection=".toList, nonspaces]) eps

/-- The optional error. -/
def errorRe : Regex := alt (cat [lit " - ".toList, group 5 (plus anyChar)]) eps

/-- The part of `_SUMMARY_RE` behind the elapsed time. -/
def tailRe : Regex := cat [detectionRe, errorRe, lineEnd]

variable {rest w : List Char} {groups groups' : List (Nat × PyStr)}

theorem eats_digits (hw : ∀ c ∈ w, isDecimal c = true) (hne : w ≠ [])
    (hrest : ∀ c, rest.head? = some c → isDecimal c = false) :
    Eats digits w rest groups groups := Eats.plusCls hw hne hrest

theorem eats_lineEnd : Eats lineEnd [] [] groups groups := Eats.look fun _ => rfl

theorem eats_noError (h : rest.head? = none) : Eats errorRe [] rest groups groups := by
  refine Eats.altRight (Refuses.cat_cons (Refuses.lit ?_)) Eats.eps
  rw [List.nil_append, h]
  exact nofun

theorem eats_detection (hw : ∀ c ∈ w, isSpace c = false) (hne : w ≠ [])
    (hrest : ∀ c, rest.head? = some c → isSpace c = true) :
    Eats detectionRe (" detection=".toList ++ w) rest groups groups := by
  refine Eats.altLeft (Eats.cat_cons Eats.lit (Eats.cat_last (Eats.plusCls ?_ hne ?_)))
  · intro c hc
    rw [hw c hc]
    rfl
  · intro c hc
    rw [hrest c hc]
    rfl

/-- Nothing is left. -/
theorem eats_tail_nil : Eats tailRe [] [] groups groups := by
  have hnone : Eats detectionRe [] [] groups groups := by
    refine Eats.altRight (Refuses.cat_cons (Refuses.lit ?_)) Eats.eps
    exact nofun
  have hrest : Eats (cat [errorRe, lineEnd]) ([] ++ []) [] groups groups :=
    Eats.cat_cons (eats_noError rfl) (Eats.cat_last eats_lineEnd)
  exact Eats.cat_cons hnone hrest

/-- A detection status is left. -/
theorem eats_tail_detection (hw : ∀ c ∈ w, isSpace c = false) (hne : w ≠ []) :
    Eats tailRe (" detection=".toList ++ w) [] groups groups := by
  have hdetection : Eats detectionRe (" detection=".toList ++ w) ([] ++ []) groups groups :=
    eats_detection hw hne nofun
  have hrest : Eats (cat [errorRe, lineEnd]) ([] ++ []) [] groups groups :=
    Eats.cat_cons (eats_noError rfl) (Eats.cat_last eats_lineEnd)
  have h := Eats.cat_cons hdetection hrest
  rwa [List.append_nil] at h

/-- A detection status and an error are left. -/
theorem eats_tail_error {error : PyStr} (hw : ∀ c ∈ w, isSpace c = false) (hne : w ≠ [])
    (herror : error ≠ []) (hline : '\n' ∉ error) :
    Eats tailRe ((" detection=".toList ++ w) ++ (" - ".toList ++ error)) [] groups
      ((5, error) :: groups) := by
  have hchars : ∀ c ∈ error, decide (c ≠ '\n') = true := by
    intro c hc
    exact decide_eq_true fun h => hline (h ▸ hc)
  have hgroup : Eats (group 5 (plus anyChar)) error ([] ++ []) groups ((5, error) :: groups) :=
    Eats.group (Eats.plusCls hchars herror nofun)
  have herr : Eats errorRe (" - ".toList ++ error) ([] ++ []) groups ((5, error) :: groups) :=
    Eats.altLeft (Eats.cat_cons Eats.lit (Eats.cat_last hgroup))
  have hrest : Eats (cat [errorRe, lineEnd]) ((" - ".toList ++ error) ++ []) [] groups
      ((5, error) :: groups) := Eats.cat_cons herr (Eats.cat_last eats_lineEnd)
  rw [List.append_nil] at hrest
  refine Eats.cat_cons (eats_detection hw hne ?_) hrest
  intro c hc
  cases hc
  decide

end eats

section head

open Regex

variable {result : WorkloadResult} {rest : List Char}

/-- The line of a result up to its elapsed time, and what follows. -/
theorem headText_append (result : WorkloadResult) (rest : List Char) :
    result.headText ++ rest = '[' :: (result.statusText ++ ("] ".toList ++ (result.name ++
      (": rc=".toList ++ (intText result.returncode ++ (" elapsed=".toList ++
        (tenthsText result.elapsed ++ 's' :: rest))))))) := by
  simp [WorkloadResult.headText]

theorem eats_status (result : WorkloadResult) (rest : List Char)
    (groups : List (Nat × PyStr)) :
    Eats (alt (lit "OK".toList) (alt (lit "ERR".toList) (alt (lit "SUCCEEDED".toList)
      (lit "FAILED".toList)))) result.statusText rest groups groups := by
  unfold WorkloadResult.statusText
  split
  · refine Eats.altRight (Refuses.lit ?_) (Eats.altRight (Refuses.lit ?_) (Eats.altLeft Eats.lit))
    · exact fun h => absurd (Option.some.inj h) (by decide)
    · exact fun h => absurd (Option.some.inj h) (by decide)
  · refine Eats.altRight (Refuses.lit ?_) (Eats.altRight (Refuses.lit ?_)
      (Eats.altRight (Refuses.lit ?_) Eats.lit))
    · exact fun h => absurd (Option.some.inj h) (by decide)
    · exact fun h => absurd (Option.some.inj h) (by decide)
    · exact fun h => absurd (Option.some.inj h) (by decide)

theorem eats_rc (n : Int) (hrest : ∀ c, rest.head? = some c → isDecimal c = false)
    (groups : List (Nat × PyStr)) : Eats rcPattern (intText n) rest groups groups := by
  obtain ⟨sign, hsign, htext⟩ := intText_eq n
  have hdigits : Eats (cat [digits]) (Nat.toDigits 10 n.natAbs) rest groups groups :=
    Eats.cat_last (eats_digits (fun c hc => isDecimal_of_mem_toDigits hc) Nat.toDigits_ne_nil hrest)
  rw [htext]
  rcases hsign with rfl | rfl
  · refine Eats.cat_cons (Eats.altRight (Refuses.chr ?_) Eats.eps) hdigits
    intro hminus
    -- the digits do not begin with a minus
    cases hds : Nat.toDigits 10 n.natAbs with
    | nil => exact Nat.toDigits_ne_nil hds
    | cons c ds =>
        rw [hds] at hminus
        cases hminus
        have hc : '-' ∈ Nat.toDigits 10 n.natAbs := by
          rw [hds]
          exact List.mem_cons_self
        exact (isDecimal_solid (isDecimal_of_mem_toDigits hc)).2.1 rfl
  · exact Eats.cat_cons (Eats.altLeft Eats.chr) hdigits

theorem eats_elapsed {x : Rat} (h : 0 ≤ x)
    (hrest : ∀ c, rest.head? = some c → isDecimal c = false) (groups : List (Nat × PyStr)) :
    Eats (cat [digits, alt (cat [chr '.', digits]) eps]) (tenthsText x) rest groups groups := by
  obtain ⟨whole, fraction, htext⟩ := tenthsText_eq h
  rw [htext]
  refine Eats.cat_cons (eats_digits (fun c hc => isDecimal_of_mem_toDigits hc)
    Nat.toDigits_ne_nil ?_) (Eats.cat_last (Eats.altLeft (Eats.cat_chr (Eats.cat_last
      (eats_digits (fun c hc => isDecimal_of_mem_toDigits hc) Nat.toDigits_ne_nil hrest)))))
  intro c hc
  cases hc
  rfl

/-- The groups of a line that is left whole up to its elapsed time. -/
def headGroups (result : WorkloadResult) : List (Nat × PyStr) :=
  [(4, tenthsText result.elapsed), (3, intText result.returncode), (2, result.name),
    (1, result.statusText)]

/-- The pattern eats the line of a result if it eats what is behind the elapsed time. -/
theorem eats_summary {groups : List (Nat × PyStr)} (hname : PlainName result.name)
    (helapsed : 0 ≤ result.elapsed) (h : Eats tailRe rest [] (headGroups result) groups) :
    Eats summaryRe (result.headText ++ rest) [] [] groups := by
  have hspace : ∀ c, (" elapsed=".toList ++ (tenthsText result.elapsed ++ 's' :: rest) ++
      []).head? = some c → isDecimal c = false := by
    intro c hc
    cases hc
    rfl
  have hs : ∀ c, (('s' :: rest) ++ []).head? = some c → isDecimal c = false := by
    intro c hc
    cases hc
    rfl
  have hchars : ∀ c ∈ result.name, decide (c ≠ ':') = true :=
    fun c hc => decide_eq_true (hname.plain c hc).1
  have hcolon : ∀ c, ((": rc=".toList ++ (intText result.returncode ++ (" elapsed=".toList ++
      (tenthsText result.elapsed ++ 's' :: rest)))) ++ []).head? = some c →
      decide (c ≠ ':') = false := by
    intro c hc
    cases hc
    rfl
  rw [headText_append]
  exact Eats.cat_chr (Eats.cat_cons (Eats.group (eats_status _ _ _)) (Eats.cat_cons Eats.lit
    (Eats.cat_cons (Eats.group (Eats.plusCls hchars hname.ne_nil hcolon)) (Eats.cat_cons Eats.lit
      (Eats.cat_cons (Eats.group (eats_rc _ hspace _)) (Eats.cat_cons Eats.lit
        (Eats.cat_cons (Eats.group (eats_elapsed helapsed hs _)) (Eats.cat_chr h))))))))

end head

/-! ## What the pattern matches -/

section lang

open Regex

variable {result : WorkloadResult} {text rest : List Char}

/-- What the optional parts take. -/
def OptionalTail (tail : PyStr) : Prop :=
  ∃ detection error, tail = detection ++ error ∧
    (detection = [] ∨ ∃ w, detection = " detection=".toList ++ w ∧ w ≠ [] ∧
      ∀ c ∈ w, isSpace c = false) ∧
    (error = [] ∨ ∃ e, error = " - ".toList ++ e ∧ e ≠ [])

theorem mem_lang_detectionRe {w : PyStr} (h : w ∈ detectionRe.lang) :
    w = [] ∨ ∃ v, w = " detection=".toList ++ v ∧ v ≠ [] ∧ ∀ c ∈ v, isSpace c = false := by
  rcases mem_lang_alt.mp h with h | h
  · right
    obtain ⟨mark, hmark, v, hv, rfl⟩ := mem_lang_cat_cons.mp h
    obtain ⟨hne, hover⟩ := over_of_mem_lang_plus (mem_lang_cat_last.mp hv)
    refine ⟨v, by rw [mem_lang_lit.mp hmark], hne, ?_⟩
    intro c hc
    simpa using hover c hc
  · exact .inl (mem_lang_eps.mp h)

theorem mem_lang_errorRe {w : PyStr} (h : w ∈ errorRe.lang) :
    w = [] ∨ ∃ v, w = " - ".toList ++ v ∧ v ≠ [] := by
  rcases mem_lang_alt.mp h with h | h
  · right
    obtain ⟨mark, hmark, v, hv, rfl⟩ := mem_lang_cat_cons.mp h
    have hplus : v ∈ (plus anyChar).lang := mem_lang_cat_last.mp hv
    exact ⟨v, by rw [mem_lang_lit.mp hmark], (over_of_mem_lang_plus hplus).1⟩
  · exact .inl (mem_lang_eps.mp h)

/-- The words of the pattern. -/
theorem mem_lang_summaryRe (h : text ∈ summaryRe.lang) :
    ∃ status name rc elapsed tail, text = '[' :: (status ++ ("] ".toList ++ (name ++
        (": rc=".toList ++ (rc ++ (" elapsed=".toList ++ (elapsed ++ 's' :: tail))))))) ∧
      ']' ∉ status ∧ ':' ∉ name ∧ ' ' ∉ rc ∧ 's' ∉ elapsed ∧ OptionalTail tail := by
  obtain ⟨c₁, hc₁, w₁, hw₁, rfl⟩ := mem_lang_cat_cons.mp h
  obtain ⟨status, hstatus, w₂, hw₂, rfl⟩ := mem_lang_cat_cons.mp hw₁
  obtain ⟨c₂, hc₂, w₃, hw₃, rfl⟩ := mem_lang_cat_cons.mp hw₂
  obtain ⟨name, hname, w₄, hw₄, rfl⟩ := mem_lang_cat_cons.mp hw₃
  obtain ⟨c₃, hc₃, w₅, hw₅, rfl⟩ := mem_lang_cat_cons.mp hw₄
  obtain ⟨rc, hrc, w₆, hw₆, rfl⟩ := mem_lang_cat_cons.mp hw₅
  obtain ⟨c₄, hc₄, w₇, hw₇, rfl⟩ := mem_lang_cat_cons.mp hw₆
  obtain ⟨elapsed, helapsed, w₈, hw₈, rfl⟩ := mem_lang_cat_cons.mp hw₇
  obtain ⟨c₅, hc₅, w₉, hw₉, rfl⟩ := mem_lang_cat_cons.mp hw₈
  obtain ⟨detection, hdetection, w₁₀, hw₁₀, rfl⟩ := mem_lang_cat_cons.mp hw₉
  obtain ⟨error, herror, w₁₁, hw₁₁, rfl⟩ := mem_lang_cat_cons.mp hw₁₀
  rw [mem_lang_chr.mp hc₁, mem_lang_lit.mp hc₂, mem_lang_lit.mp hc₃, mem_lang_lit.mp hc₄,
    mem_lang_chr.mp hc₅, mem_lang_eps.mp (mem_lang_cat_last.mp hw₁₁)]
  refine ⟨status, name, rc, elapsed, detection ++ error, by simp, ?_, ?_, ?_, ?_,
    detection, error, rfl, mem_lang_detectionRe hdetection, mem_lang_errorRe herror⟩
  · rcases hstatus with hstatus | hstatus | hstatus | hstatus
    all_goals
      rw [mem_lang_lit.mp hstatus]
      decide
  · intro hc
    have hplus : name ∈ (plus (cls fun c => decide (c ≠ ':'))).lang := hname
    cases (over_of_mem_lang_plus hplus).2 ':' hc
  · obtain ⟨sign, hsign, ds, hds, rfl⟩ := mem_lang_cat_cons.mp (show rc ∈ rcPattern.lang from hrc)
    intro hc
    rcases List.mem_append.mp hc with hc | hc
    · rcases mem_lang_alt.mp hsign with hsign | hsign
      · rw [mem_lang_chr.mp hsign] at hc
        revert hc
        decide
      · rw [mem_lang_eps.mp hsign] at hc
        cases hc
    · cases (over_of_mem_lang_plus (mem_lang_cat_last.mp hds)).2 ' ' hc
  · obtain ⟨whole, hwhole, w, hw, rfl⟩ := mem_lang_cat_cons.mp
      (show elapsed ∈ (cat [digits, alt (cat [chr '.', digits]) eps]).lang from helapsed)
    intro hc
    rcases List.mem_append.mp hc with hc | hc
    · cases (over_of_mem_lang_plus hwhole).2 's' hc
    · rcases mem_lang_alt.mp (mem_lang_cat_last.mp hw) with hw | hw
      · obtain ⟨point, hpoint, fraction, hfraction, rfl⟩ := mem_lang_cat_cons.mp hw
        rw [mem_lang_chr.mp hpoint] at hc
        rcases List.mem_cons.mp hc with hc | hc
        · cases hc
        · cases (over_of_mem_lang_plus (mem_lang_cat_last.mp hfraction)).2 's' hc
      · rw [mem_lang_eps.mp hw] at hc
        cases hc

theorem notMem_statusText (result : WorkloadResult) : ']' ∉ result.statusText := by
  unfold WorkloadResult.statusText
  split <;> decide

theorem notMem_intText (n : Int) : ' ' ∉ intText n := by
  obtain ⟨sign, hsign, htext⟩ := intText_eq n
  rw [htext]
  intro hc
  rcases List.mem_append.mp hc with hc | hc
  · rcases hsign with rfl | rfl
    · cases hc
    · revert hc
      decide
  · exact notMem_toDigits rfl hc

theorem notMem_tenthsText {x : Rat} (h : 0 ≤ x) : 's' ∉ tenthsText x := by
  obtain ⟨whole, fraction, htext⟩ := tenthsText_eq h
  rw [htext]
  intro hc
  rcases List.mem_append.mp hc with hc | hc
  · exact notMem_toDigits rfl hc
  · rcases List.mem_cons.mp hc with hc | hc
    · cases hc
    · exact notMem_toDigits rfl hc

/-- A text that the pattern matches, and that goes on as the line of a result does, has the
whole of that line up to its elapsed time. -/
theorem headText_of_mem_lang (hname : PlainName result.name) (helapsed : 0 ≤ result.elapsed)
    (h : text ∈ summaryRe.lang) (hbegins : text <+: result.headText ++ rest) :
    ∃ tail, text = result.headText ++ tail ∧ tail <+: rest ∧ OptionalTail tail := by
  obtain ⟨status, name, rc, elapsed, tail, rfl, hstatus, hname', hrc, helapsed', htail⟩ :=
    mem_lang_summaryRe h
  obtain ⟨more, hline⟩ := hbegins
  rw [headText_append] at hline
  simp only [List.cons_append, List.append_assoc, List.cons.injEq, true_and] at hline
  have hcolon : ':' ∉ result.name := fun hc => (hname.plain ':' hc).1 rfl
  -- the four values are cut at the same characters
  obtain ⟨rfl, hafter₁⟩ := cut_unique hstatus (notMem_statusText result) rfl rfl hline
  have hline₂ := List.append_cancel_left hafter₁
  obtain ⟨rfl, hafter₂⟩ := cut_unique hname' hcolon rfl rfl hline₂
  have hline₃ := List.append_cancel_left hafter₂
  obtain ⟨rfl, hafter₃⟩ := cut_unique hrc (notMem_intText _) rfl rfl hline₃
  have hline₄ := List.append_cancel_left hafter₃
  obtain ⟨rfl, hafter₄⟩ := cut_unique helapsed' (notMem_tenthsText helapsed) rfl rfl hline₄
  exact ⟨tail, (headText_append result tail).symm, ⟨more, (List.cons.inj hafter₄).2⟩, htail⟩

end lang

/-! ## A line cut off -/

/-- The part of an error up to its first line ending. -/
def firstLine (error : PyStr) : PyStr := error.takeWhile fun c => !isNewline c

/-- The line of a result behind its elapsed time, up to its first line ending. -/
def lineTail (error : PyStr) : PyStr :=
  " detection=not_evaluated".toList ++ if error = [] then [] else " - ".toList ++ firstLine error

/-- What the dashboard retains of the first line of a result. -/
def reportLine (result : WorkloadResult) : PyStr :=
  (firstLine result.summaryLine).take maxLineChars

/-- The retained part of a line can be read as the report of its result: it is not cut off
within its values, and where it has the dash of an error, something of the error can be
seen behind it. -/
structure Readable (result : WorkloadResult) : Prop where
  head : result.headText.length ≤ maxLineChars
  detection : maxLineChars ≤ result.headText.length + 1 ∨
    result.headText.length + 12 ≤ maxLineChars
  error : result.error ≠ [] → result.headText.length + 26 ≤ maxLineChars →
    ¬ Blank ((firstLine result.error).take (maxLineChars - result.headText.length - 27))

/-- What can be left behind the elapsed time. -/
inductive Shape : PyStr → Prop
  | nothing : Shape []
  | detection {w : PyStr} : w ≠ [] → (∀ c ∈ w, isSpace c = false) →
      Shape (" detection=".toList ++ w)
  | error {w e : PyStr} : w ≠ [] → (∀ c ∈ w, isSpace c = false) → e ≠ [] → '\n' ∉ e →
      Shape ((" detection=".toList ++ w) ++ (" - ".toList ++ e))

theorem Shape.eats {tail : PyStr} (h : Shape tail) (result : WorkloadResult) :
    ∃ groups, Regex.Eats tailRe tail [] (headGroups result) groups ∧
      ∀ i, i ≠ 5 → groups.lookup i = (headGroups result).lookup i := by
  cases h with
  | nothing => exact ⟨_, eats_tail_nil, fun _ _ => rfl⟩
  | detection hne hw => exact ⟨_, eats_tail_detection hw hne, fun _ _ => rfl⟩
  | error hne hw herror hline =>
      refine ⟨_, eats_tail_error hw hne herror hline, ?_⟩
      intro i hi
      rw [List.lookup_cons, beq_eq_false_iff_ne.mpr hi]

section cut

variable {result : WorkloadResult} {error : PyStr} {k : Nat}

theorem detection_solid : ∀ c ∈ "not_evaluated".toList, isSpace c = false := by simp [isSpace]

theorem newline_notMem_firstLine (error : PyStr) : '\n' ∉ firstLine error := by
  intro h
  cases List.mem_takeWhile_imp h

theorem not_blank_of_solid {w : PyStr} (hw : ∀ c ∈ w, isSpace c = false) (hne : w ≠ []) :
    ¬ Blank w := by
  intro hblank
  obtain ⟨c, hc⟩ := List.exists_mem_of_ne_nil w hne
  exact Bool.false_ne_true ((hw c hc).symm.trans (hblank c hc))

/-- A tail cut off in its detection status, or right behind it. -/
theorem take_lineTail_short (hk : 12 ≤ k) (h : k ≤ 25 ∨ error = []) :
    ∃ trail, Blank trail ∧ (lineTail error).take k =
      " detection=".toList ++ "not_evaluated".toList.take (k - 11) ++ trail := by
  refine ⟨(if error = [] then [] else " - ".toList ++ firstLine error).take (k - 24), ?_, ?_⟩
  · by_cases herror : error = []
    · rw [if_pos herror, List.take_nil]
      exact List.forall_mem_nil _
    · rw [if_neg herror]
      have hle : k - 24 ≤ 1 := by
        have := h.resolve_right herror
        omega
      intro c hc
      have hmem : c ∈ (" - ".toList ++ firstLine error).take 1 :=
        (List.take_prefix_take_left hle).subset hc
      rw [List.mem_singleton.mp hmem]
      decide
  · unfold lineTail
    have hmark : (" detection=".toList).length ≤ k := Nat.le_of_succ_le hk
    rw [show " detection=not_evaluated".toList = " detection=".toList ++ "not_evaluated".toList
      from rfl, List.append_assoc, List.take_append, List.take_of_length_le hmark,
      List.take_append, List.append_assoc]
    simp only [String.length_toList]
    congr 3

/-- A tail cut off in its error. -/
theorem take_lineTail_long (hk : 26 ≤ k) (h : error ≠ []) :
    (lineTail error).take k = (" detection=".toList ++ "not_evaluated".toList ++ " -".toList) ++
      (' ' :: firstLine error).take (k - 26) := by
  unfold lineTail
  rw [if_neg h]
  have hlen : (" detection=".toList ++ "not_evaluated".toList ++ " -".toList).length = 26 := rfl
  have hsplit : " detection=not_evaluated".toList ++ (" - ".toList ++ firstLine error) =
      (" detection=".toList ++ "not_evaluated".toList ++ " -".toList) ++
        ' ' :: firstLine error := rfl
  rw [hsplit, List.take_append, hlen, List.take_of_length_le (by omega)]

/-- A readable tail has one of the three shapes. -/
theorem shape_lineTail (hdetection : k ≤ 1 ∨ 12 ≤ k)
    (herror : error ≠ [] → 26 ≤ k → ¬ Blank ((firstLine error).take (k - 27))) :
    Shape (((lineTail error).take k).rdropWhile isSpace) := by
  rcases hdetection with hk | hk
  · have hblank : Blank ((lineTail error).take k) := by
      intro c hc
      have hmem : c ∈ (lineTail error).take 1 := (List.take_prefix_take_left hk).subset hc
      rw [List.mem_singleton.mp hmem]
      decide
    rw [List.rdropWhile_eq_nil_iff.mpr hblank]
    exact .nothing
  · by_cases hshort : k ≤ 25 ∨ error = []
    · obtain ⟨trail, htrail, htake⟩ := take_lineTail_short hk hshort
      have hsolid : ∀ c ∈ "not_evaluated".toList.take (k - 11), isSpace c = false :=
        fun c hc => detection_solid c (List.mem_of_mem_take hc)
      have hne : "not_evaluated".toList.take (k - 11) ≠ [] := by
        rw [← List.length_pos_iff, List.length_take]
        have : ("not_evaluated".toList).length = 13 := rfl
        omega
      rw [htake, rdropWhile_append_of_blank htrail,
        rdropWhile_append_of_not_blank (not_blank_of_solid hsolid hne),
        rdropWhile_of_solid hsolid]
      exact .detection hne hsolid
    · have hlong : 26 ≤ k ∧ error ≠ [] := by
        rw [not_or] at hshort
        exact ⟨by omega, hshort.2⟩
      have hseen := herror hlong.2 hlong.1
      have hk' : 27 ≤ k := by
        by_contra hlt
        rw [Nat.sub_eq_zero_of_le (Nat.le_of_not_le hlt), List.take_zero] at hseen
        exact hseen (List.forall_mem_nil _)
      obtain ⟨n, rfl⟩ : ∃ n, k = n + 27 := ⟨k - 27, by omega⟩
      rw [Nat.add_sub_cancel] at hseen
      have htake := take_lineTail_long hlong.1 hlong.2
      rw [show n + 27 - 26 = n + 1 by omega, List.take_succ_cons] at htake
      have hassoc : (" detection=".toList ++ "not_evaluated".toList ++ " -".toList) ++
          ' ' :: (firstLine error).take n = (" detection=".toList ++ "not_evaluated".toList ++
            " - ".toList) ++ (firstLine error).take n := rfl
      rw [htake, hassoc, rdropWhile_append_of_not_blank hseen, List.append_assoc]
      refine .error (by decide) detection_solid (rdropWhile_ne_nil_of_not_blank hseen) ?_
      intro hmem
      exact newline_notMem_firstLine error
        (List.mem_of_mem_take ((List.rdropWhile_prefix _ _).subset hmem))

/-- A tail that the optional parts take is readable. -/
theorem readable_of_optionalTail
    (h : OptionalTail (((lineTail error).take k).rdropWhile isSpace)) :
    (k ≤ 1 ∨ 12 ≤ k) ∧
      (error ≠ [] → 26 ≤ k → ¬ Blank ((firstLine error).take (k - 27))) := by
  obtain ⟨detection, e, htail, hdetection, he⟩ := h
  have hbegins : detection ++ e <+: lineTail error := by
    rw [← htail]
    exact (List.rdropWhile_prefix _ _).trans (List.take_prefix _ _)
  -- a dash does not follow on the elapsed time
  have hdash : ∀ v, ¬ " - ".toList ++ v <+: lineTail error := by
    rintro v ⟨more, hmore⟩
    cases hmore
  constructor
  · by_contra hk
    rw [not_or] at hk
    have hlen : (detection ++ e).length ≤ k := by
      rw [← htail]
      exact (List.rdropWhile_prefix _ _).length_le.trans (List.length_take_le _ _)
    rcases hdetection with rfl | ⟨w, rfl, hne, -⟩
    · rcases he with rfl | ⟨v, rfl, -⟩
      · refine rdropWhile_ne_nil_of_not_blank ?_ htail
        intro hblank
        have hmem : 'd' ∈ (lineTail error).take k :=
          (List.take_prefix_take_left (show 2 ≤ k by omega)).subset
            (show 'd' ∈ [' ', 'd'] by decide)
        cases hblank 'd' hmem
      · exact hdash v hbegins
    · have hpos := List.length_pos_of_ne_nil hne
      have hmark : (" detection=".toList).length = 11 := rfl
      simp only [List.length_append, hmark] at hlen
      omega
  · intro herror hk hblank
    have hrest : Blank ((' ' :: firstLine error).take (k - 26)) := by
      cases hn : k - 26 with
      | zero => exact List.forall_mem_nil _
      | succ n =>
          rw [List.take_succ_cons, show n = k - 27 by omega]
          exact List.forall_mem_cons.mpr ⟨by decide, hblank⟩
    have hend : (" detection=".toList ++ "not_evaluated".toList ++ " -".toList).rdropWhile isSpace =
        " detection=".toList ++ ("not_evaluated".toList ++ " -".toList) := by decide
    rw [take_lineTail_long hk herror, rdropWhile_append_of_blank hrest, hend] at htail
    rcases hdetection with rfl | ⟨w, rfl, -, hw⟩
    · rcases he with rfl | ⟨v, rfl, -⟩
      · cases htail
      · cases htail
    · rw [List.append_assoc] at htail
      have hvalue := List.append_cancel_left htail
      have hw' : ' ' ∉ w := by
        intro hmem
        cases hw ' ' hmem
      rcases he with rfl | ⟨v, rfl, -⟩
      · rw [List.append_nil] at hvalue
        rw [← hvalue] at hw'
        exact hw' (by decide)
      · obtain ⟨-, hdashes⟩ := cut_unique (c := ' ') (by decide) hw' rfl rfl hvalue
        cases hdashes

end cut

end SrxProbe.Dashboard
