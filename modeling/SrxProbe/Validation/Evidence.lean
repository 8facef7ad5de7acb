import SrxProbe.Validation.Correlator

/-!
# The evidence table

What a verdict says about the telemetry and the capture, in the terms of the
documented table: whether some event satisfies the stimulus, whether the capture
holds a compatible tuple, and which event is the closest.
-/

namespace SrxProbe.Validation

open SrxProbe.Lib

section

variable (p : Platform) (c : Correlator) (stimulus : Stimulus)

/-- The event has the type, the tuple and the time the stimulus asks for. -/
def Satisfies (ev : TelemetryEvent) : Prop :=
  ev.eventType = stimulus.expectedEventType ∧
    observationMatches p stimulus.fiveTuple ev.fiveTuple = true ∧
    withinWindow p stimulus.timestamp ev.timestamp c.windowS c.skewS = true

/-- The capture holds a tuple compatible with the stimulus. -/
def Captured (groundTruth : List FiveTuple) : Prop :=
  ∃ t ∈ groundTruth, observationMatches p stimulus.fiveTuple t = true

/-- The closest event that satisfies the stimulus; of several equally close ones
the first. -/
def Closest (events : List TelemetryEvent) (ev : TelemetryEvent) : Prop :=
  Satisfies p c stimulus ev ∧ ∃ before after, events = before ++ ev :: after ∧
    (∀ e ∈ before, Satisfies p c stimulus e → distance p stimulus ev < distance p stimulus e) ∧
    ∀ e ∈ after, Satisfies p c stimulus e → distance p stimulus ev ≤ distance p stimulus e

/-- Each expected field is present, not `None` and not empty. -/
def Complete (ev : TelemetryEvent) : Prop :=
  ∀ f ∈ stimulus.expectedFields, ∃ value, ev.fields.get? f = some value ∧
    value ≠ .none ∧ value ≠ .str []

/-- When a stimulus counts as observed. -/
def Observed (events : List TelemetryEvent) (groundTruth : Option (List FiveTuple)) : Prop :=
  (∃ gt, groundTruth = some gt ∧ Captured p stimulus gt) ∨
    (groundTruth = none ∧ (∃ ev ∈ events, Satisfies p c stimulus ev) ∧
      c.requireGroundTruth = false)

/-- The documented table, row by row. -/
structure EvidenceTable (events : List TelemetryEvent) (groundTruth : Option (List FiveTuple))
    (v : Verdict) : Prop where
  logged_yes : v.logged = .yes ↔ ∃ ev ∈ events, Satisfies p c stimulus ev
  logged_no : v.logged = .no ↔ (¬ ∃ ev ∈ events, Satisfies p c stimulus ev) ∧
    (groundTruth = none ∨ ∃ gt, groundTruth = some gt ∧ Captured p stimulus gt)
  logged_inconclusive : v.logged = .inconclusive ↔
    (¬ ∃ ev ∈ events, Satisfies p c stimulus ev) ∧
      ∃ gt, groundTruth = some gt ∧ ¬ Captured p stimulus gt
  detected_yes : v.detected = .yes ↔ Observed p c stimulus events groundTruth
  detected_inconclusive :
    v.detected = .inconclusive ↔ ¬ Observed p c stimulus events groundTruth
  fields_yes : v.fieldsComplete = .yes ↔
    ∃ ev, Closest p c stimulus events ev ∧ Complete stimulus ev
  fields_no : v.fieldsComplete = .no ↔
    ∃ ev, Closest p c stimulus events ev ∧ ¬ Complete stimulus ev
  fields_inconclusive : v.fieldsComplete = .inconclusive ↔
    ¬ ∃ ev ∈ events, Satisfies p c stimulus ev
  matched : ∀ ev, v.matchedEvent = some ev → Closest p c stimulus events ev
  passed : v.passed = true ↔ (∃ ev, Closest p c stimulus events ev ∧ Complete stimulus ev) ∧
    Observed p c stimulus events groundTruth

end

/-! ## The closest match -/

section

variable {p : Platform} {c : Correlator} {stimulus : Stimulus} {events : List TelemetryEvent}

theorem isCandidate_iff {ev : TelemetryEvent} :
    c.isCandidate p stimulus ev = true ↔ Satisfies p c stimulus ev := by
  simp [Correlator.isCandidate, Satisfies, and_assoc]

/-- Two closest events stand at the same place. -/
theorem Closest.unique {ev ev' : TelemetryEvent} (h : Closest p c stimulus events ev)
    (h' : Closest p c stimulus events ev') : ev = ev' := by
  obtain ⟨hsat, before, after, heq, hbefore, hafter⟩ := h
  obtain ⟨hsat', before', after', heq', hbefore', hafter'⟩ := h'
  rw [heq] at heq'
  rcases List.append_eq_append_iff.mp heq' with ⟨mid, hmid, hrest⟩ | ⟨mid, hmid, hrest⟩
  · cases mid with
    | nil =>
        cases hrest
        rfl
    | cons e mid =>
        -- `ev` stands before `ev'`, which would have to be strictly closer
        rw [List.cons_append, List.cons.injEq] at hrest
        obtain ⟨rfl, hrest⟩ := hrest
        have hlt := hbefore' ev (hmid ▸ List.mem_append_right _ List.mem_cons_self) hsat
        have hle := hafter ev' (hrest ▸ List.mem_append_right _ List.mem_cons_self) hsat'
        exact absurd hlt (not_lt_of_ge hle)
  · cases mid with
    | nil =>
        cases hrest
        rfl
    | cons e mid =>
        rw [List.cons_append, List.cons.injEq] at hrest
        obtain ⟨rfl, hrest⟩ := hrest
        have hlt := hbefore ev' (hmid ▸ List.mem_append_right _ List.mem_cons_self) hsat'
        have hle := hafter' ev (hrest ▸ List.mem_append_right _ List.mem_cons_self) hsat
        exact absurd hlt (not_lt_of_ge hle)

/-- `correlate` returns the closest match … -/
theorem correlate_closest {ev : TelemetryEvent} (h : c.correlate p stimulus events = some ev) :
    Closest p c stimulus events ev := by
  obtain ⟨before, after, hfilter, hbefore, hafter⟩ := head?_sortBy h
  obtain ⟨left, right, hevents, hleft, hright⟩ := List.filter_eq_append_iff.mp hfilter
  obtain ⟨skipped, rest, hright', hskipped, hev, hrest⟩ := List.filter_eq_cons_iff.mp hright
  refine ⟨isCandidate_iff.mp hev, left ++ skipped, rest, ?_, ?_, ?_⟩
  · rw [hevents, hright', List.append_assoc]
  · intro e he hsat
    have hcandidate := isCandidate_iff.mpr hsat
    rcases List.mem_append.mp he with he | he
    · exact hbefore e (hleft ▸ List.mem_filter.mpr ⟨he, hcandidate⟩)
    · exact absurd hcandidate (hskipped e he)
  · intro e he hsat
    exact hafter e (hrest ▸ List.mem_filter.mpr ⟨he, isCandidate_iff.mpr hsat⟩)

/-- … and `None` exactly when nothing matches. -/
theorem correlate_none :
    c.correlate p stimulus events = none ↔ ¬ ∃ ev ∈ events, Satisfies p c stimulus ev := by
  rw [Correlator.correlate, List.head?_eq_none_iff, Correlator.candidates, sortBy_eq_nil,
    List.filter_eq_nil_iff]
  simp only [isCandidate_iff, not_exists, not_and]

theorem correlate_isSome :
    (c.correlate p stimulus events).isSome = true ↔
      ∃ ev ∈ events, Satisfies p c stimulus ev := by
  rw [← not_iff_not, ← correlate_none, Bool.not_eq_true, Option.isSome_eq_false_iff,
    Option.isNone_iff_eq_none]

/-- A match has a closest one. -/
theorem exists_closest :
    (∃ ev ∈ events, Satisfies p c stimulus ev) ↔ ∃ ev, Closest p c stimulus events ev := by
  constructor
  · intro h
    obtain ⟨ev, hev⟩ := Option.isSome_iff_exists.mp (correlate_isSome.mpr h)
    exact ⟨ev, correlate_closest hev⟩
  · rintro ⟨ev, hsat, before, after, rfl, -⟩
    exact ⟨ev, List.mem_append_right _ List.mem_cons_self, hsat⟩

theorem fieldComplete_iff {ev : TelemetryEvent} :
    (fieldComplete ev stimulus.expectedFields).1 = true ↔ Complete stimulus ev := by
  unfold fieldComplete Complete
  rw [List.isEmpty_iff, List.filter_eq_nil_iff]
  constructor
  · intro h f hf
    have hpresent := h f hf
    split at hpresent
    · exact absurd rfl hpresent
    · exact absurd rfl hpresent
    · exact absurd rfl hpresent
    · rename_i value hnone hempty hget
      exact ⟨value, hget, fun heq => hnone heq, fun heq => hempty heq⟩
  · intro h f hf
    obtain ⟨value, hget, hnone, hempty⟩ := h f hf
    rw [hget]
    split
    · rename_i heq
      cases heq
    · rename_i heq
      exact absurd (Option.some.inj heq) hnone
    · rename_i heq
      exact absurd (Option.some.inj heq) hempty
    · exact Bool.false_ne_true

/-- What `saw_ground_truth` returns. -/
theorem sawGroundTruth_true {groundTruth : Option (Iterable FiveTuple)} :
    (Correlator.sawGroundTruth p stimulus groundTruth).1 = some true ↔
      ∃ gt, groundTruth.map Iterable.items = some gt ∧ Captured p stimulus gt := by
  cases groundTruth with
  | none => simp [Correlator.sawGroundTruth]
  | some it => simp [Correlator.sawGroundTruth, Captured]

theorem sawGroundTruth_false {groundTruth : Option (Iterable FiveTuple)} :
    (Correlator.sawGroundTruth p stimulus groundTruth).1 = some false ↔
      ∃ gt, groundTruth.map Iterable.items = some gt ∧ ¬ Captured p stimulus gt := by
  cases groundTruth with
  | none => simp [Correlator.sawGroundTruth]
  | some it => simp [Correlator.sawGroundTruth, Captured]

theorem sawGroundTruth_ne_false {groundTruth : Option (Iterable FiveTuple)} :
    (Correlator.sawGroundTruth p stimulus groundTruth).1 ≠ some false ↔
      groundTruth.map Iterable.items = none ∨
        ∃ gt, groundTruth.map Iterable.items = some gt ∧ Captured p stimulus gt := by
  rw [Ne, sawGroundTruth_false]
  cases groundTruth with
  | none => simp
  | some it => simp

theorem sawGroundTruth_none {groundTruth : Option (Iterable FiveTuple)} :
    (Correlator.sawGroundTruth p stimulus groundTruth).1 = none ↔
      groundTruth.map Iterable.items = none := by
  cases groundTruth with
  | none => simp [Correlator.sawGroundTruth]
  | some it => simp [Correlator.sawGroundTruth]

end

/-! ## The verdict -/

section

variable (p : Platform) (c : Correlator) (stimulus : Stimulus) (events : Iterable TelemetryEvent)
  (groundTruth : Option (Iterable FiveTuple))

theorem evaluate_matched : (c.evaluate p stimulus events groundTruth).verdict.matchedEvent =
    c.correlate p stimulus events.items := rfl

theorem evaluate_logged : (c.evaluate p stimulus events groundTruth).verdict.logged =
    if (Correlator.sawGroundTruth p stimulus groundTruth).1 = some false ∧
        (c.correlate p stimulus events.items).isNone then .inconclusive
    else if (c.correlate p stimulus events.items).isSome then .yes else .no := rfl

theorem evaluate_detected : (c.evaluate p stimulus events groundTruth).verdict.detected =
    if (Correlator.sawGroundTruth p stimulus groundTruth).1 = some true then .yes
    else if (Correlator.sawGroundTruth p stimulus groundTruth).1 = none ∧
        (c.correlate p stimulus events.items).isSome ∧ !c.requireGroundTruth then .yes
    else .inconclusive := rfl

/-- `detected` is YES when the stimulus counts as observed, and never NO. -/
theorem detected_eq : (c.evaluate p stimulus events groundTruth).verdict.detected = .yes ∧
      Observed p c stimulus events.items (groundTruth.map Iterable.items) ∨
    (c.evaluate p stimulus events groundTruth).verdict.detected = .inconclusive ∧
      ¬ Observed p c stimulus events.items (groundTruth.map Iterable.items) := by
  rw [evaluate_detected]
  by_cases htrue : (Correlator.sawGroundTruth p stimulus groundTruth).1 = some true
  · rw [if_pos htrue]
    exact .inl ⟨rfl, .inl (sawGroundTruth_true.mp htrue)⟩
  · rw [if_neg htrue]
    by_cases hinfer : (Correlator.sawGroundTruth p stimulus groundTruth).1 = none ∧
        (c.correlate p stimulus events.items).isSome ∧ !c.requireGroundTruth
    · rw [if_pos hinfer]
      obtain ⟨hnone, hsome, hstrict⟩ := hinfer
      refine .inl ⟨rfl, .inr ⟨sawGroundTruth_none.mp hnone, correlate_isSome.mp hsome, ?_⟩⟩
      simpa using hstrict
    · rw [if_neg hinfer]
      refine .inr ⟨rfl, ?_⟩
      rintro (hcaptured | ⟨hnone, hsome, hstrict⟩)
      · exact htrue (sawGroundTruth_true.mpr hcaptured)
      · refine hinfer ⟨sawGroundTruth_none.mpr hnone, correlate_isSome.mpr hsome, ?_⟩
        simpa using hstrict

/-- `logged` by whether an event matched and what the capture shows. -/
theorem logged_eq :
    (c.evaluate p stimulus events groundTruth).verdict.logged = .yes ∧
      (∃ ev ∈ events.items, Satisfies p c stimulus ev) ∨
    (c.evaluate p stimulus events groundTruth).verdict.logged = .no ∧
      (¬ ∃ ev ∈ events.items, Satisfies p c stimulus ev) ∧
      (Correlator.sawGroundTruth p stimulus groundTruth).1 ≠ some false ∨
    (c.evaluate p stimulus events groundTruth).verdict.logged = .inconclusive ∧
      (¬ ∃ ev ∈ events.items, Satisfies p c stimulus ev) ∧
      (Correlator.sawGroundTruth p stimulus groundTruth).1 = some false := by
  rw [evaluate_logged]
  by_cases hmatch : ∃ ev ∈ events.items, Satisfies p c stimulus ev
  · obtain ⟨ev, hev⟩ := Option.isSome_iff_exists.mp (correlate_isSome.mpr hmatch)
    exact .inl ⟨by simp [hev], hmatch⟩
  · have hnone := correlate_none.mpr hmatch
    by_cases hfalse : (Correlator.sawGroundTruth p stimulus groundTruth).1 = some false
    · exact .inr (.inr ⟨by simp [hnone, hfalse], hmatch, hfalse⟩)
    · exact .inr (.inl ⟨by simp [hnone, hfalse], hmatch, hfalse⟩)

/-- `fields_complete` is decided by the closest match alone. -/
theorem fieldsComplete_eq :
    (c.evaluate p stimulus events groundTruth).verdict.fieldsComplete = .inconclusive ∧
      (¬ ∃ ev ∈ events.items, Satisfies p c stimulus ev) ∨
    ∃ ev, Closest p c stimulus events.items ev ∧
      ((c.evaluate p stimulus events groundTruth).verdict.fieldsComplete = .yes ∧
          Complete stimulus ev ∨
        (c.evaluate p stimulus events groundTruth).verdict.fieldsComplete = .no ∧
          ¬ Complete stimulus ev) := by
  cases hmatched : c.correlate p stimulus events.items with
  | none =>
      refine .inl ⟨?_, correlate_none.mp hmatched⟩
      simp [Correlator.evaluate, hmatched]
  | some ev =>
      refine .inr ⟨ev, correlate_closest hmatched, ?_⟩
      by_cases hcomplete : Complete stimulus ev
      · refine .inl ⟨?_, hcomplete⟩
        simp [Correlator.evaluate, hmatched, fieldComplete_iff.mpr hcomplete]
      · have hfalse : (fieldComplete ev stimulus.expectedFields).1 = false := by
          rw [← Bool.not_eq_true, fieldComplete_iff]
          exact hcomplete
        refine .inr ⟨?_, hcomplete⟩
        simp [Correlator.evaluate, hmatched, hfalse]

/-- Every verdict is as the documented table has it. -/
theorem evaluate_table : EvidenceTable p c stimulus events.items
    (groundTruth.map Iterable.items) (c.evaluate p stimulus events groundTruth).verdict := by
  have hdetected := detected_eq p c stimulus events groundTruth
  have hlogged := logged_eq p c stimulus events groundTruth
  have hfields := fieldsComplete_eq p c stimulus events groundTruth
  have hmatched := evaluate_matched p c stimulus events groundTruth
  rw [sawGroundTruth_ne_false, sawGroundTruth_false] at hlogged
  generalize (c.evaluate p stimulus events groundTruth).verdict = v at *
  have hfields_yes : v.fieldsComplete = .yes ↔
      ∃ ev, Closest p c stimulus events.items ev ∧ Complete stimulus ev := by
    rcases hfields with ⟨hv, hnone⟩ | ⟨ev, hev, ⟨hv, hcomplete⟩ | ⟨hv, hcomplete⟩⟩
    · rw [hv]
      exact ⟨nofun, fun ⟨ev, hev, _⟩ => absurd (exists_closest.mpr ⟨ev, hev⟩) hnone⟩
    · exact ⟨fun _ => ⟨ev, hev, hcomplete⟩, fun _ => hv⟩
    · rw [hv]
      refine ⟨nofun, ?_⟩
      rintro ⟨ev', hev', hcomplete'⟩
      exact absurd (hev'.unique hev ▸ hcomplete') hcomplete
  have hlogged_yes : v.logged = .yes ↔ ∃ ev ∈ events.items, Satisfies p c stimulus ev := by
    rcases hlogged with ⟨hv, hmatch⟩ | ⟨hv, hmatch, -⟩ | ⟨hv, hmatch, -⟩
    · exact ⟨fun _ => hmatch, fun _ => hv⟩
    · rw [hv]
      exact ⟨nofun, fun h => absurd h hmatch⟩
    · rw [hv]
      exact ⟨nofun, fun h => absurd h hmatch⟩
  have hdetected_yes : v.detected = .yes ↔
      Observed p c stimulus events.items (groundTruth.map Iterable.items) := by
    rcases hdetected with ⟨hv, hobserved⟩ | ⟨hv, hobserved⟩
    · exact ⟨fun _ => hobserved, fun _ => hv⟩
    · rw [hv]
      exact ⟨nofun, fun h => absurd h hobserved⟩
  -- row by row: each value of a column excludes the conditions of the others
  refine ⟨hlogged_yes, ?_, ?_, hdetected_yes, ?_, hfields_yes, ?_, ?_, ?_, ?_⟩
  · rcases hlogged with ⟨hv, hmatch⟩ | ⟨hv, hmatch, htruth⟩ | ⟨hv, hmatch, gt, hgt, hnot⟩
    · rw [hv]
      exact ⟨nofun, fun h => absurd hmatch h.1⟩
    · exact ⟨fun _ => ⟨hmatch, htruth⟩, fun _ => hv⟩
    · rw [hv]
      refine ⟨nofun, ?_⟩
      rintro ⟨-, hnone | ⟨gt', hgt', hcaptured⟩⟩
      · rw [hgt] at hnone
        cases hnone
      · rw [hgt, Option.some.injEq] at hgt'
        exact absurd (hgt' ▸ hcaptured) hnot
  · rcases hlogged with ⟨hv, hmatch⟩ | ⟨hv, hmatch, htruth⟩ | ⟨hv, hmatch, htruth⟩
    · rw [hv]
      exact ⟨nofun, fun h => absurd hmatch h.1⟩
    · rw [hv]
      refine ⟨nofun, ?_⟩
      rintro ⟨-, gt, hgt, hnot⟩
      rcases htruth with hnone | ⟨gt', hgt', hcaptured⟩
      · rw [hgt] at hnone
        cases hnone
      · rw [hgt, Option.some.injEq] at hgt'
        exact absurd (hgt' ▸ hcaptured) hnot
    · exact ⟨fun _ => ⟨hmatch, htruth⟩, fun _ => hv⟩
  · rcases hdetected with ⟨hv, hobserved⟩ | ⟨hv, hobserved⟩
    · rw [hv]
      exact ⟨nofun, fun h => absurd hobserved h⟩
    · exact ⟨fun _ => hobserved, fun _ => hv⟩
  · rcases hfields with ⟨hv, hnone⟩ | ⟨ev, hev, ⟨hv, hcomplete⟩ | ⟨hv, hcomplete⟩⟩
    · rw [hv]
      exact ⟨nofun, fun ⟨ev, hev, _⟩ => absurd (exists_closest.mpr ⟨ev, hev⟩) hnone⟩
    · rw [hv]
      refine ⟨nofun, ?_⟩
      rintro ⟨ev', hev', hcomplete'⟩
      exact absurd hcomplete (hev'.unique hev ▸ hcomplete')
    · exact ⟨fun _ => ⟨ev, hev, hcomplete⟩, fun _ => hv⟩
  · rcases hfields with ⟨hv, hnone⟩ | ⟨ev, hev, ⟨hv, -⟩ | ⟨hv, -⟩⟩
    · exact ⟨fun _ => hnone, fun _ => hv⟩
    · rw [hv]
      exact ⟨nofun, fun h => absurd (exists_closest.mpr ⟨ev, hev⟩) h⟩
    · rw [hv]
      exact ⟨nofun, fun h => absurd (exists_closest.mpr ⟨ev, hev⟩) h⟩
  · intro ev hev
    exact correlate_closest (hmatched.symm.trans hev)
  · -- a closest match is a match, so `logged` adds nothing
    simp only [Verdict.passed, Bool.and_eq_true, decide_eq_true_eq]
    rw [hdetected_yes, hlogged_yes, hfields_yes]
    constructor
    · rintro ⟨⟨hobserved, -⟩, hclosest⟩
      exact ⟨hclosest, hobserved⟩
    · rintro ⟨⟨ev, hev, hcomplete⟩, hobserved⟩
      exact ⟨⟨hobserved, exists_closest.mpr ⟨ev, hev⟩⟩, ev, hev, hcomplete⟩

/-! ## The matrix -/

/-- A verdict depends on what the iterables hold, not on whether they can be read
again. -/
theorem evaluate_ofList : (c.evaluate p stimulus (.ofList events.items)
      ((groundTruth.map Iterable.items).map .ofList)).verdict =
    (c.evaluate p stimulus events groundTruth).verdict := by
  cases groundTruth <;> rfl

theorem buildMatrix_rows (stimuli : Iterable Stimulus) :
    (c.buildMatrix p stimuli events groundTruth).rows =
      stimuli.items.map (fun stim => (c.evaluate p stim events groundTruth).verdict) := by
  unfold Correlator.buildMatrix
  refine List.map_congr_left ?_
  intro stim _
  exact evaluate_ofList p c stim events groundTruth

end

/-- **The evidence table.** For every correlator, stimulus, telemetry and capture, the
verdict is as documented; a matrix passes when it has rows and each stimulus,
evaluated alone, passes, whatever can be read only once. -/
theorem verdicts_follow_table (p : Platform) (c : Correlator) :
    (∀ stimulus events groundTruth, EvidenceTable p c stimulus events.items
      (groundTruth.map Iterable.items) (c.evaluate p stimulus events groundTruth).verdict) ∧
    ∀ stimuli events groundTruth,
      (c.buildMatrix p stimuli events groundTruth).passed = true ↔ stimuli.items ≠ [] ∧
        ∀ stim ∈ stimuli.items,
          (c.evaluate p stim events groundTruth).verdict.passed = true := by
  refine ⟨evaluate_table p c, ?_⟩
  intro stimuli events groundTruth
  rw [CoverageMatrix.passed, buildMatrix_rows, Bool.and_eq_true, List.all_map, List.all_eq_true]
  simp [and_comm]

end SrxProbe.Validation
