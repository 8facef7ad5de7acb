import SrxProbe.Validation.Evidence

/-!
# Selection of events

Which events a correlator selects, in which order, and what becomes of the selection
when the telemetry grows, a window widens or the stimulus says less.
-/

namespace SrxProbe.Validation

open SrxProbe.Lib

/-! ## The documented conditions -/

/-- The platform with exact arithmetic on timestamps. -/
def Platform.exact (p : Platform) : Platform := { p with round := id }

/-- No two concrete fields differ; protocols are compared in upper case. -/
structure Compatible (p : Platform) (stimulus observed : FiveTuple) : Prop where
  srcIp : ∀ a ∈ stimulus.srcIp, ∀ b ∈ observed.srcIp, a = b
  dstIp : ∀ a ∈ stimulus.dstIp, ∀ b ∈ observed.dstIp, a = b
  protocol : ∀ a ∈ stimulus.protocol, ∀ b ∈ observed.protocol, p.upper a = p.upper b
  srcPort : ∀ a ∈ stimulus.srcPort, ∀ b ∈ observed.srcPort, a = b
  dstPort : ∀ a ∈ stimulus.dstPort, ∀ b ∈ observed.dstPort, a = b

/-- The observation has an address, and no invalid one. -/
structure Identified (p : Platform) (observed : FiveTuple) : Prop where
  present : observed.srcIp ≠ none ∨ observed.dstIp ≠ none
  srcIp : ∀ a ∈ observed.srcIp, p.ipAddress a = true
  dstIp : ∀ a ∈ observed.dstIp, p.ipAddress a = true

/-- The event time is finite and in the inclusive window of a finite stimulus time. -/
def InWindow (stimulusTime eventTime : Timestamp) (windowS skewS : Rat) : Prop :=
  ∃ t e, stimulusTime = .finite t ∧ eventTime = .finite e ∧
    t - skewS ≤ e ∧ e ≤ t + windowS + skewS

/-- What the documentation asks of a candidate. -/
structure Qualifies (p : Platform) (c : Correlator) (stimulus : Stimulus) (ev : TelemetryEvent) :
    Prop where
  eventType : ev.eventType = stimulus.expectedEventType
  identified : Identified p ev.fiveTuple
  compatible : Compatible p stimulus.fiveTuple ev.fiveTuple
  inWindow : InWindow stimulus.timestamp ev.timestamp c.windowS c.skewS

/-- `|ev.timestamp - stimulus.timestamp|` in exact arithmetic, for finite times. -/
def gap (stimulus : Stimulus) (ev : TelemetryEvent) : Rat :=
  match ev.timestamp, stimulus.timestamp with
  | .finite eventTime, .finite stimulusTime => |eventTime - stimulusTime|
  | _, _ => 0

/-! ## The code computes them -/

section

variable {p : Platform} {c : Correlator} {stimulus : Stimulus}

theorem valueCompatible_iff {α : Type} [DecidableEq α] {x y : Option α} :
    valueCompatible x y = true ↔ ∀ a ∈ x, ∀ b ∈ y, a = b := by
  cases x <;> cases y <;> simp [valueCompatible]

theorem fiveTupleMatches_iff {stimulus observed : FiveTuple} :
    fiveTupleMatches p stimulus observed = true ↔ Compatible p stimulus observed := by
  simp only [fiveTupleMatches, FiveTuple.normalized, Bool.and_eq_true, valueCompatible_iff]
  constructor
  · intro ⟨⟨⟨⟨hsrc, hdst⟩, hprotocol⟩, hsrcPort⟩, hdstPort⟩
    refine ⟨hsrc, hdst, ?_, hsrcPort, hdstPort⟩
    intro x hx y hy
    exact hprotocol _ (Option.mem_map_of_mem p.upper hx) _ (Option.mem_map_of_mem p.upper hy)
  · intro h
    refine ⟨⟨⟨⟨h.srcIp, h.dstIp⟩, ?_⟩, h.srcPort⟩, h.dstPort⟩
    intro x hx y hy
    obtain ⟨x', hx', rfl⟩ := Option.mem_map.mp hx
    obtain ⟨y', hy', rfl⟩ := Option.mem_map.mp hy
    exact h.protocol x' hx' y' hy'

/-- The addresses an observation supplies. -/
theorem mem_addresses {observed : FiveTuple} {a : PyStr} :
    a ∈ [observed.srcIp, observed.dstIp].filterMap id ↔
      a ∈ observed.srcIp ∨ a ∈ observed.dstIp := by
  simp [eq_comm]

theorem identified_iff {observed : FiveTuple} : Identified p observed ↔
    [observed.srcIp, observed.dstIp].filterMap id ≠ [] ∧
      ∀ a ∈ [observed.srcIp, observed.dstIp].filterMap id, p.ipAddress a = true := by
  simp only [mem_addresses]
  constructor
  · intro h
    refine ⟨?_, fun a ha => ha.elim (h.srcIp a) (h.dstIp a)⟩
    have hsome : ∃ a, a ∈ observed.srcIp ∨ a ∈ observed.dstIp := by
      rcases h.present with hsrc | hdst
      · obtain ⟨a, ha⟩ := Option.ne_none_iff_exists'.mp hsrc
        exact ⟨a, .inl ha⟩
      · obtain ⟨a, ha⟩ := Option.ne_none_iff_exists'.mp hdst
        exact ⟨a, .inr ha⟩
    obtain ⟨a, ha⟩ := hsome
    exact List.ne_nil_of_mem (mem_addresses.mpr ha)
  · intro ⟨hne, hvalid⟩
    refine ⟨?_, fun a ha => hvalid a (.inl ha), fun a ha => hvalid a (.inr ha)⟩
    obtain ⟨a, ha⟩ := List.exists_mem_of_ne_nil _ hne
    exact (mem_addresses.mp ha).imp (fun ha => Option.ne_none_iff_exists'.mpr ⟨a, ha⟩)
      (fun ha => Option.ne_none_iff_exists'.mpr ⟨a, ha⟩)

theorem observationMatches_iff {stimulus observed : FiveTuple} :
    observationMatches p stimulus observed = true ↔
      Identified p observed ∧ Compatible p stimulus observed := by
  rw [← fiveTupleMatches_iff, identified_iff]
  show (if ([observed.srcIp, observed.dstIp].filterMap id).isEmpty then false
    else if ([observed.srcIp, observed.dstIp].filterMap id).all p.ipAddress then
      fiveTupleMatches p stimulus observed
    else false) = true ↔ _
  generalize [observed.srcIp, observed.dstIp].filterMap id = addresses
  by_cases hempty : addresses = []
  · simp [hempty]
  · by_cases hvalid : ∀ a ∈ addresses, p.ipAddress a = true
    · rw [if_neg (by simpa using hempty), if_pos (List.all_eq_true.mpr hvalid)]
      exact ⟨fun h => ⟨⟨hempty, hvalid⟩, h⟩, fun h => h.2⟩
    · rw [if_neg (by simpa using hempty), if_neg (fun h => hvalid (List.all_eq_true.mp h))]
      simp [hvalid]

theorem withinWindow_exact {stimulusTime eventTime : Timestamp} {windowS skewS : Rat} :
    withinWindow p.exact stimulusTime eventTime windowS skewS = true ↔
      InWindow stimulusTime eventTime windowS skewS := by
  unfold InWindow
  cases stimulusTime with
  | nonfinite => simp [withinWindow]
  | finite t =>
      cases eventTime with
      | nonfinite => simp [withinWindow]
      | finite e =>
          show (decide (t - skewS ≤ e) && decide (e ≤ t + windowS + skewS)) = true ↔ _
          simp

theorem satisfies_exact {ev : TelemetryEvent} :
    Satisfies p.exact c stimulus ev ↔ Qualifies p c stimulus ev := by
  rw [Satisfies, observationMatches_iff, withinWindow_exact]
  constructor
  · rintro ⟨htype, ⟨hidentified, hcompatible⟩, htime⟩
    exact ⟨htype, ⟨hidentified.1, hidentified.2, hidentified.3⟩,
      ⟨hcompatible.1, hcompatible.2, hcompatible.3, hcompatible.4, hcompatible.5⟩, htime⟩
  · intro h
    exact ⟨h.eventType, ⟨⟨h.identified.1, h.identified.2, h.identified.3⟩,
      ⟨h.compatible.1, h.compatible.2, h.compatible.3, h.compatible.4, h.compatible.5⟩⟩,
      h.inWindow⟩

instance : DecidablePred (Qualifies p c stimulus) := fun ev =>
  decidable_of_iff (c.isCandidate p.exact stimulus ev = true)
    (isCandidate_iff.trans satisfies_exact)

theorem candidates_exact (events : List TelemetryEvent) :
    c.candidates p.exact stimulus events =
      sortBy (gap stimulus) (events.filter fun ev => Qualifies p c stimulus ev) := by
  have hfilter : events.filter (c.isCandidate p.exact stimulus) =
      events.filter fun ev => Qualifies p c stimulus ev := by
    refine List.filter_congr ?_
    intro ev _
    rw [Bool.eq_iff_iff, isCandidate_iff, satisfies_exact, decide_eq_true_eq]
  show sortBy (distance p.exact stimulus) (events.filter (c.isCandidate p.exact stimulus)) = _
  rw [hfilter]
  rfl

/-- The candidates are what the filter keeps, wherever other events were inserted. -/
theorem candidates_interleave (p : Platform) {events junk merged : List TelemetryEvent}
    (h : Interleave events junk merged) (hjunk : ∀ ev ∈ junk, ¬ Satisfies p c stimulus ev) :
    c.candidates p stimulus merged = c.candidates p stimulus events := by
  unfold Correlator.candidates
  rw [h.filter_eq]
  intro ev hev
  rw [← Bool.not_eq_true, isCandidate_iff]
  exact hjunk ev hev

end

/-! ## The stable closest match -/

/-- What is selected from the events, and that nothing else decides it. -/
structure StableSelection (p : Platform) (c : Correlator) (stimulus : Stimulus)
    (events : List TelemetryEvent) (candidates : List TelemetryEvent)
    (closest : Option TelemetryEvent) : Prop where
  none_iff : closest = none ↔ ∀ ev ∈ events, ¬ Qualifies p c stimulus ev
  first_least : ∀ ev, closest = some ev → Qualifies p c stimulus ev ∧
    ∃ before after, events = before ++ ev :: after ∧
      (∀ e ∈ before, Qualifies p c stimulus e → gap stimulus ev < gap stimulus e) ∧
      ∀ e ∈ after, Qualifies p c stimulus e → gap stimulus ev ≤ gap stimulus e
  perm : candidates.Perm (events.filter fun ev => Qualifies p c stimulus ev)
  sorted : candidates.Pairwise fun e e' => gap stimulus e ≤ gap stimulus e'
  ties : ∀ d, candidates.filter (fun ev => gap stimulus ev = d) =
    events.filter fun ev => gap stimulus ev = d ∧ Qualifies p c stimulus ev

/-- **The stable closest match.** For every correlator, stimulus and event list the
candidates are the qualifying events by distance with ties in input order, the
selected one is the first of the closest, and events that do not qualify change
neither, wherever they are inserted. -/
theorem selects_stable_closest (p : Platform) (c : Correlator) (stimulus : Stimulus)
    (events : List TelemetryEvent) :
    StableSelection p c stimulus events (c.candidates p.exact stimulus events)
      (c.correlate p.exact stimulus events) ∧
    ∀ junk merged, Interleave events junk merged →
      (∀ ev ∈ junk, ¬ Qualifies p c stimulus ev) →
      c.candidates p.exact stimulus merged = c.candidates p.exact stimulus events ∧
        c.correlate p.exact stimulus merged = c.correlate p.exact stimulus events := by
  refine ⟨⟨?_, ?_, ?_, ?_, ?_⟩, ?_⟩
  · rw [correlate_none]
    simp only [satisfies_exact, not_exists, not_and]
  · intro ev hev
    obtain ⟨hsat, before, after, hevents, hbefore, hafter⟩ := correlate_closest hev
    simp only [satisfies_exact] at hsat hbefore hafter
    exact ⟨hsat, before, after, hevents, hbefore, hafter⟩
  · rw [candidates_exact]
    exact perm_sortBy _ _
  · rw [candidates_exact]
    exact pairwise_le_sortBy _ _
  · intro d
    rw [candidates_exact, filter_key_sortBy, List.filter_filter]
    simp only [Bool.decide_and]
  · intro junk merged hmerged hjunk
    have hcandidates :
        c.candidates p.exact stimulus merged = c.candidates p.exact stimulus events :=
      candidates_interleave p.exact hmerged (fun ev hev => satisfies_exact.not.mpr (hjunk ev hev))
    refine ⟨hcandidates, ?_⟩
    show (c.candidates p.exact stimulus merged).head? = _
    rw [hcandidates]
    rfl

/-! ## Widening -/

/-- `b` is `a` with some fields replaced by `None`. -/
structure Widened (a b : FiveTuple) : Prop where
  srcIp : b.srcIp = a.srcIp ∨ b.srcIp = none
  dstIp : b.dstIp = a.dstIp ∨ b.dstIp = none
  protocol : b.protocol = a.protocol ∨ b.protocol = none
  srcPort : b.srcPort = a.srcPort ∨ b.srcPort = none
  dstPort : b.dstPort = a.dstPort ∨ b.dstPort = none

section

variable {p : Platform} {a b : FiveTuple}

theorem Compatible.widen {observed : FiveTuple} (h : Compatible p a observed)
    (hwide : Widened a b) : Compatible p b observed where
  srcIp x hx :=
    h.srcIp x ((hwide.srcIp.resolve_right (Option.ne_none_iff_exists'.mpr ⟨x, hx⟩)) ▸ hx)
  dstIp x hx :=
    h.dstIp x ((hwide.dstIp.resolve_right (Option.ne_none_iff_exists'.mpr ⟨x, hx⟩)) ▸ hx)
  protocol x hx :=
    h.protocol x ((hwide.protocol.resolve_right (Option.ne_none_iff_exists'.mpr ⟨x, hx⟩)) ▸ hx)
  srcPort x hx :=
    h.srcPort x ((hwide.srcPort.resolve_right (Option.ne_none_iff_exists'.mpr ⟨x, hx⟩)) ▸ hx)
  dstPort x hx :=
    h.dstPort x ((hwide.dstPort.resolve_right (Option.ne_none_iff_exists'.mpr ⟨x, hx⟩)) ▸ hx)

theorem observationMatches_widen {observed : FiveTuple} (hwide : Widened a b)
    (h : observationMatches p a observed = true) : observationMatches p b observed = true := by
  obtain ⟨hidentified, hcompatible⟩ := observationMatches_iff.mp h
  exact observationMatches_iff.mpr ⟨hidentified, hcompatible.widen hwide⟩

/-- A longer window holds what a shorter one holds, also after rounding. -/
theorem withinWindow_mono (hround : Monotone p.round) {stimulusTime eventTime : Timestamp}
    {windowS windowS' skewS skewS' : Rat} (hwindow : windowS ≤ windowS') (hskew : skewS ≤ skewS')
    (h : withinWindow p stimulusTime eventTime windowS skewS = true) :
    withinWindow p stimulusTime eventTime windowS' skewS' = true := by
  cases stimulusTime with
  | nonfinite => cases h
  | finite t =>
      cases eventTime with
      | nonfinite => cases h
      | finite e =>
          rw [withinWindow, Bool.and_eq_true, decide_eq_true_eq, decide_eq_true_eq] at h ⊢
          refine ⟨?_, ?_⟩
          · calc p.round (t - skewS') ≤ p.round (t - skewS) := hround (sub_le_sub_left hskew t)
              _ ≤ e := h.1
          · have hsum : p.round (t + windowS) ≤ p.round (t + windowS') :=
              hround (add_le_add_right hwindow t)
            calc e ≤ p.round (p.round (t + windowS) + skewS) := h.2
              _ ≤ p.round (p.round (t + windowS') + skewS') := hround (add_le_add hsum hskew)

end

/-- **Widening never loses evidence.** With longer windows and wildcards for fields of
the stimulus the candidates keep those of before, in their order, and a capture that
showed the stimulus still shows it, also with more tuples. Of the rounding of
floats only monotonicity is used. -/
theorem widening_keeps_evidence (p : Platform) (hround : Monotone p.round) (c c' : Correlator)
    (hwindow : c.windowS ≤ c'.windowS) (hskew : c.skewS ≤ c'.skewS) (stimulus : Stimulus)
    (tuple : FiveTuple) (hwide : Widened stimulus.fiveTuple tuple) :
    (∀ events, (c.candidates p stimulus events).Sublist
      (c'.candidates p { stimulus with fiveTuple := tuple } events)) ∧
    ∀ groundTruth groundTruth' : Iterable FiveTuple,
      (∀ t ∈ groundTruth.items, t ∈ groundTruth'.items) →
      (Correlator.sawGroundTruth p stimulus (some groundTruth)).1 = some true →
      (Correlator.sawGroundTruth p { stimulus with fiveTuple := tuple }
        (some groundTruth')).1 = some true := by
  refine ⟨?_, ?_⟩
  · intro events
    refine sortBy_sublist (distance p stimulus) (List.monotone_filter_right events ?_)
    intro ev hev
    obtain ⟨htype, hmatches, htime⟩ := isCandidate_iff.mp hev
    exact isCandidate_iff.mpr ⟨htype, observationMatches_widen hwide hmatches,
      withinWindow_mono hround hwindow hskew htime⟩
  · intro groundTruth groundTruth' hmore hsaw
    rw [sawGroundTruth_true] at hsaw ⊢
    obtain ⟨gt, hgt, t, ht, hmatches⟩ := hsaw
    cases hgt
    exact ⟨groundTruth'.items, rfl, t, hmore t ht, observationMatches_widen hwide hmatches⟩

/-- Dropping the source port and doubling the window. -/
theorem widening_keeps_evidence_port :
    ((⟨10, 2, false, by decide, by decide⟩ : Correlator).candidates ⟨id, id, fun _ => true⟩
      ⟨⟨none, none, none, some 1000, some 80⟩, .finite 100, [], [], [], []⟩
      [⟨[], ⟨some "192.0.2.1".toList, none, none, some 1000, some 80⟩, .finite 112, .empty, []⟩,
        ⟨[], ⟨some "192.0.2.1".toList, none, none, none, some 80⟩, .finite 90, .empty, []⟩]).Sublist
    ((⟨20, 2, false, by decide, by decide⟩ : Correlator).candidates ⟨id, id, fun _ => true⟩
      ⟨⟨none, none, none, none, some 80⟩, .finite 100, [], [], [], []⟩
      [⟨[], ⟨some "192.0.2.1".toList, none, none, some 1000, some 80⟩, .finite 112, .empty, []⟩,
        ⟨[], ⟨some "192.0.2.1".toList, none, none, none, some 80⟩, .finite 90, .empty, []⟩]) :=
  (widening_keeps_evidence ⟨id, id, fun _ => true⟩ monotone_id
    ⟨10, 2, false, by decide, by decide⟩ ⟨20, 2, false, by decide, by decide⟩ (by decide)
    (le_refl 2) ⟨⟨none, none, none, some 1000, some 80⟩, .finite 100, [], [], [], []⟩
    ⟨none, none, none, none, some 80⟩ ⟨.inl rfl, .inl rfl, .inl rfl, .inr rfl, .inl rfl⟩).1 _

end SrxProbe.Validation
