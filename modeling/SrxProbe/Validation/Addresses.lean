import SrxProbe.Lib.IpText
import SrxProbe.Validation.Selection

/-!
# Addresses are compared as text

An observed address has to be one that `ipaddress.ip_address` reads, but what is
compared is how it is written. An IPv4 address has one spelling; where an IPv6
address is respelled, exactly the observations that were matched through its old
or new spelling are affected.
-/

namespace SrxProbe.Validation

open SrxProbe.Lib

/-- The platform with the address check of `ipaddress.ip_address`. -/
def Platform.reading (p : Platform) : Platform :=
  { p with ipAddress := fun s => (Lib.ipAddress s).isSome }

/-- `find_events`. -/
def findEvents (p : Platform) (events : List TelemetryEvent) (eventType : PyStr)
    (fiveTuple : Option FiveTuple) : List TelemetryEvent :=
  events.filter fun ev => ev.eventType = eventType &&
    match fiveTuple with
    | none => true
    | some t => observationMatches p t ev.fiveTuple

/-! ## Respelling -/

/-- One of the two address fields of a tuple. -/
inductive Endpoint
  | source
  | destination
  deriving DecidableEq, Repr

def FiveTuple.ip (t : FiveTuple) : Endpoint → Option PyStr
  | .source => t.srcIp
  | .destination => t.dstIp

def FiveTuple.withIp (t : FiveTuple) (e : Endpoint) (ip : Option PyStr) : FiveTuple :=
  match e with
  | .source => { t with srcIp := ip }
  | .destination => { t with dstIp := ip }

/-- Two strings that denote one address. -/
def SameAddress (a b : PyStr) : Prop := ∃ address, ipAddress a = some address ∧
  ipAddress b = some address

/-- The field is concrete and spelled as one of two different texts. -/
def SpelledOneWay (a b : PyStr) (field : Option PyStr) : Prop :=
  a ≠ b ∧ (field = some a ∨ field = some b)

section

variable {p : Platform} {a b : PyStr}

@[simp] theorem FiveTuple.ip_withIp (t : FiveTuple) (e : Endpoint) (ip : Option PyStr) :
    (t.withIp e ip).ip e = ip := by
  cases e <;> rfl

theorem FiveTuple.withIp_ip (t : FiveTuple) (e : Endpoint) : t.withIp e (t.ip e) = t := by
  cases e <;> rfl

theorem FiveTuple.withIp_withIp (t : FiveTuple) (e : Endpoint) (ip ip' : Option PyStr) :
    (t.withIp e ip).withIp e ip' = t.withIp e ip' := by
  cases e <;> rfl

/-- One address field apart from the rest of the comparison. -/
theorem compatible_withIp {stimulus observed : FiveTuple} (e : Endpoint) :
    Compatible p stimulus observed ↔ Compatible p (stimulus.withIp e none) observed ∧
      ∀ x ∈ stimulus.ip e, ∀ y ∈ observed.ip e, x = y := by
  cases e with
  | source =>
      constructor
      · intro h
        exact ⟨⟨nofun, h.dstIp, h.protocol, h.srcPort, h.dstPort⟩, h.srcIp⟩
      · intro ⟨h, hip⟩
        exact ⟨hip, h.dstIp, h.protocol, h.srcPort, h.dstPort⟩
  | destination =>
      constructor
      · intro h
        exact ⟨⟨h.srcIp, nofun, h.protocol, h.srcPort, h.dstPort⟩, h.dstIp⟩
      · intro ⟨h, hip⟩
        exact ⟨h.srcIp, hip, h.protocol, h.srcPort, h.dstPort⟩

theorem observationMatches_withIp {stimulus observed : FiveTuple} (e : Endpoint) :
    observationMatches p stimulus observed = true ↔
      observationMatches p (stimulus.withIp e none) observed = true ∧
        ∀ x ∈ stimulus.ip e, ∀ y ∈ observed.ip e, x = y := by
  rw [observationMatches_iff, observationMatches_iff, compatible_withIp e, and_assoc]

/-- Another spelling that is read identifies an observation as well. -/
theorem identified_withIp {observed : FiveTuple} {e : Endpoint} (hb : p.ipAddress b = true)
    (h : Identified p (observed.withIp e (some a))) :
    Identified p (observed.withIp e (some b)) := by
  have hread : ∀ x ∈ some b, p.ipAddress x = true := by
    intro x hx
    cases hx
    exact hb
  cases e with
  | source => exact ⟨.inl nofun, hread, h.dstIp⟩
  | destination => exact ⟨.inr nofun, h.srcIp, hread⟩

/-- Against a stimulus without that address the spelling does not matter. -/
theorem observationMatches_wildcard {stimulus observed : FiveTuple} {e : Endpoint}
    (ha : p.ipAddress a = true) (hb : p.ipAddress b = true) (hnone : stimulus.ip e = none) :
    observationMatches p stimulus (observed.withIp e (some a)) =
      observationMatches p stimulus (observed.withIp e (some b)) := by
  have hcompatible : ∀ x y, Compatible p stimulus (observed.withIp e (some x)) →
      Compatible p stimulus (observed.withIp e (some y)) := by
    intro x y h
    cases e with
    | source =>
        have hsrc : stimulus.srcIp = none := hnone
        refine ⟨?_, h.dstIp, h.protocol, h.srcPort, h.dstPort⟩
        intro z hz
        rw [hsrc] at hz
        cases hz
    | destination =>
        have hdst : stimulus.dstIp = none := hnone
        refine ⟨h.srcIp, ?_, h.protocol, h.srcPort, h.dstPort⟩
        intro z hz
        rw [hdst] at hz
        cases hz
  rw [Bool.eq_iff_iff, observationMatches_iff, observationMatches_iff]
  constructor
  · intro ⟨hidentified, h⟩
    exact ⟨identified_withIp hb hidentified, hcompatible a b h⟩
  · intro ⟨hidentified, h⟩
    exact ⟨identified_withIp ha hidentified, hcompatible b a h⟩

/-- Two texts agree with a field alike, unless it is spelled as one of them. -/
theorem agree_iff {field : Option PyStr} :
    ((∀ y ∈ field, a = y) ↔ ∀ y ∈ field, b = y) ↔ ¬ SpelledOneWay a b field := by
  cases field with
  | none => simp [SpelledOneWay]
  | some y =>
      simp only [Option.mem_def, Option.some.injEq, forall_eq', SpelledOneWay]
      constructor
      · intro hiff ⟨hne, hy⟩
        rcases hy with rfl | rfl
        · exact hne (hiff.mp rfl).symm
        · exact hne (hiff.mpr rfl)
      · intro hnot
        constructor
        · rintro rfl
          by_contra hne
          exact hnot ⟨fun hab => hne hab.symm, .inl rfl⟩
        · rintro rfl
          by_contra hne
          exact hnot ⟨hne, .inr rfl⟩

/-- **Respelling an address of the stimulus** changes the match exactly where the
observation is spelled one of the two ways and all else matches. -/
theorem stimulus_respelled (e : Endpoint) (stimulus observed : FiveTuple) :
    observationMatches p (stimulus.withIp e (some a)) observed =
        observationMatches p (stimulus.withIp e (some b)) observed ↔
      ¬ (SpelledOneWay a b (observed.ip e) ∧
        observationMatches p (stimulus.withIp e none) observed = true) := by
  have hmatch : ∀ x, observationMatches p (stimulus.withIp e (some x)) observed = true ↔
      observationMatches p (stimulus.withIp e none) observed = true ∧
        ∀ y ∈ observed.ip e, x = y := by
    intro x
    rw [observationMatches_withIp e, FiveTuple.withIp_withIp, FiveTuple.ip_withIp]
    simp
  rw [Bool.eq_iff_iff, hmatch, hmatch]
  by_cases hrest : observationMatches p (stimulus.withIp e none) observed = true
  · simp only [hrest, true_and, and_true]
    exact agree_iff
  · simp [hrest]

/-- **Respelling an observed address** changes the match exactly where the stimulus is
spelled one of the two ways and all else matches. -/
theorem observed_respelled (ha : p.ipAddress a = true) (hb : p.ipAddress b = true) (e : Endpoint)
    (stimulus observed : FiveTuple) :
    observationMatches p stimulus (observed.withIp e (some a)) =
        observationMatches p stimulus (observed.withIp e (some b)) ↔
      ¬ (SpelledOneWay a b (stimulus.ip e) ∧
        observationMatches p (stimulus.withIp e none) (observed.withIp e (some a)) = true) := by
  have hwild : observationMatches p (stimulus.withIp e none) (observed.withIp e (some a)) =
      observationMatches p (stimulus.withIp e none) (observed.withIp e (some b)) :=
    observationMatches_wildcard ha hb (FiveTuple.ip_withIp _ _ _)
  have hmatch : ∀ x, observationMatches p (stimulus.withIp e none)
        (observed.withIp e (some a)) =
      observationMatches p (stimulus.withIp e none) (observed.withIp e (some x)) →
      (observationMatches p stimulus (observed.withIp e (some x)) = true ↔
        observationMatches p (stimulus.withIp e none) (observed.withIp e (some a)) = true ∧
          ∀ y ∈ stimulus.ip e, x = y) := by
    intro x hx
    rw [observationMatches_withIp e, ← hx, FiveTuple.ip_withIp]
    refine and_congr_right fun _ => ⟨fun h y hy => (h y hy x rfl).symm, ?_⟩
    intro h y hy z hz
    cases hz
    exact (h y hy).symm
  rw [Bool.eq_iff_iff, hmatch a rfl, hmatch b hwild]
  by_cases hrest :
      observationMatches p (stimulus.withIp e none) (observed.withIp e (some a)) = true
  · simp only [hrest, true_and, and_true]
    exact agree_iff
  · simp [hrest]

theorem ipAddress_of_sameAddress (h : SameAddress a b) :
    p.reading.ipAddress a = true ∧ p.reading.ipAddress b = true := by
  obtain ⟨address, ha, hb⟩ := h
  show (Lib.ipAddress a).isSome = true ∧ (Lib.ipAddress b).isSome = true
  rw [ha, hb]
  exact ⟨rfl, rfl⟩

/-- An IPv4 address has one spelling. -/
theorem eq_of_sameAddress_v4 {ip : Nat} (h : SameAddress a b) (ha : ipAddress a = some (.v4 ip)) :
    a = b := by
  have hparse : ∀ s, ipAddress s = some (.v4 ip) → IpAddress.str (.v4 ip) = s := by
    intro s hs
    unfold ipAddress at hs
    split at hs
    · rename_i hv4
      cases hs
      exact IpAddress.str_of_parseV4 hv4
    · obtain ⟨_, -, hv6⟩ := Option.map_eq_some_iff.mp hs
      cases hv6
  obtain ⟨address, ha', hb⟩ := h
  rw [ha] at ha'
  cases ha'
  exact (hparse a ha).symm.trans (hparse b hb)

end

/-! ## Queries -/

/-- `t'` is `t`, or `t` with `b` for an address `a` where `stimulus` does not tell
them apart. -/
def RespelledTuple (p : Platform) (a b : PyStr) (stimulus t t' : FiveTuple) : Prop :=
  t' = t ∨ ∃ e, t.ip e = some a ∧ t' = t.withIp e (some b) ∧
    ¬ (SpelledOneWay a b (stimulus.ip e) ∧
      observationMatches p (stimulus.withIp e none) t = true)

/-- The same of an event, of which nothing else changes. -/
def RespelledEvent (p : Platform) (a b : PyStr) (stimulus : FiveTuple)
    (ev ev' : TelemetryEvent) : Prop :=
  ∃ t, ev' = { ev with fiveTuple := t } ∧ RespelledTuple p a b stimulus ev.fiveTuple t

/-- No observation tells the two spellings of the stimulus apart. -/
def Indifferent (p : Platform) (a b : PyStr) (e : Endpoint) (stimulus : FiveTuple)
    (observed : List FiveTuple) : Prop :=
  ∀ t ∈ observed, ¬ (SpelledOneWay a b (t.ip e) ∧
    observationMatches p (stimulus.withIp e none) t = true)

/-- The stimulus with another address. -/
def Stimulus.withIp (stimulus : Stimulus) (e : Endpoint) (ip : Option PyStr) : Stimulus :=
  { stimulus with fiveTuple := stimulus.fiveTuple.withIp e ip }

section

variable {p : Platform} {a b : PyStr} {c : Correlator}

namespace Indifferent

variable {e : Endpoint} {stimulus : Stimulus} {events : List TelemetryEvent}

theorem matches_eq {stimulus t : FiveTuple} {observed : List FiveTuple}
    (h : Indifferent p a b e stimulus observed) (ht : t ∈ observed) :
    observationMatches p (stimulus.withIp e (some a)) t =
      observationMatches p (stimulus.withIp e (some b)) t :=
  (stimulus_respelled e stimulus t).mpr (h t ht)

/-- The candidates are filtered by the same test, and the sort looks at no address. -/
theorem candidates_eq
    (h : Indifferent p a b e stimulus.fiveTuple (events.map TelemetryEvent.fiveTuple))
    (c : Correlator) : c.candidates p (stimulus.withIp e (some a)) events =
      c.candidates p (stimulus.withIp e (some b)) events := by
  have hfilter : events.filter (c.isCandidate p (stimulus.withIp e (some a))) =
      events.filter (c.isCandidate p (stimulus.withIp e (some b))) := by
    refine List.filter_congr ?_
    intro ev hev
    show (_ && observationMatches _ (stimulus.fiveTuple.withIp e (some a)) _ && _) = _
    rw [h.matches_eq (List.mem_map_of_mem hev)]
    rfl
  show sortBy _ (events.filter _) = sortBy _ (events.filter _)
  rw [hfilter]
  rfl

theorem findEvents_eq
    (h : Indifferent p a b e stimulus.fiveTuple (events.map TelemetryEvent.fiveTuple))
    (eventType : PyStr) :
    findEvents p events eventType (some (stimulus.fiveTuple.withIp e (some a))) =
      findEvents p events eventType (some (stimulus.fiveTuple.withIp e (some b))) := by
  refine List.filter_congr ?_
  intro ev hev
  show (_ && observationMatches _ (stimulus.fiveTuple.withIp e (some a)) _) = _
  rw [h.matches_eq (List.mem_map_of_mem hev)]

theorem sawGroundTruth_eq {truth : Iterable FiveTuple}
    (h : Indifferent p a b e stimulus.fiveTuple truth.items) :
    (Correlator.sawGroundTruth p (stimulus.withIp e (some a)) (some truth)).1 =
      (Correlator.sawGroundTruth p (stimulus.withIp e (some b)) (some truth)).1 := by
  refine congrArg some ?_
  show truth.items.any _ = truth.items.any _
  rw [Bool.eq_iff_iff, List.any_eq_true, List.any_eq_true]
  refine exists_congr fun t => and_congr_right fun ht => ?_
  show observationMatches _ (stimulus.fiveTuple.withIp e (some a)) t = true ↔ _
  rw [h.matches_eq ht]
  rfl

end Indifferent

section respelled

variable {stimulus : Stimulus} {events events' : List TelemetryEvent}

theorem RespelledTuple.matches_eq {stimulus t t' : FiveTuple} (ha : p.ipAddress a = true)
    (hb : p.ipAddress b = true) (h : RespelledTuple p a b stimulus t t') :
    observationMatches p stimulus t = observationMatches p stimulus t' := by
  rcases h with rfl | ⟨e, hip, rfl, hnot⟩
  · rfl
  · have hself : t.withIp e (some a) = t := hip ▸ t.withIp_ip e
    have hiff := observed_respelled ha hb e stimulus t
    rw [hself] at hiff
    exact hiff.mpr hnot

theorem RespelledEvent.matches_eq {stimulus : FiveTuple} {ev ev' : TelemetryEvent}
    (ha : p.ipAddress a = true) (hb : p.ipAddress b = true)
    (h : RespelledEvent p a b stimulus ev ev') :
    observationMatches p stimulus ev.fiveTuple = observationMatches p stimulus ev'.fiveTuple := by
  obtain ⟨t, rfl, ht⟩ := h
  exact ht.matches_eq ha hb

/-- Each candidate is kept with its respelling, at the same place. -/
theorem candidates_respelled (ha : p.ipAddress a = true) (hb : p.ipAddress b = true)
    (h : List.Forall₂ (RespelledEvent p a b stimulus.fiveTuple) events events')
    (c : Correlator) : List.Forall₂ (RespelledEvent p a b stimulus.fiveTuple)
      (c.candidates p stimulus events) (c.candidates p stimulus events') := by
  refine forall₂_sortBy ?_ (List.rel_filter ?_ h)
  · intro ev ev' hev
    obtain ⟨t, rfl, -⟩ := hev
    rfl
  · intro ev ev' hev
    show _ = true ↔ _ = true
    unfold Correlator.isCandidate
    rw [hev.matches_eq ha hb]
    obtain ⟨t, rfl, -⟩ := hev
    rfl

theorem findEvents_respelled (ha : p.ipAddress a = true) (hb : p.ipAddress b = true)
    (h : List.Forall₂ (RespelledEvent p a b stimulus.fiveTuple) events events')
    (eventType : PyStr) : List.Forall₂ (RespelledEvent p a b stimulus.fiveTuple)
      (findEvents p events eventType (some stimulus.fiveTuple))
      (findEvents p events' eventType (some stimulus.fiveTuple)) := by
  refine List.rel_filter ?_ h
  intro ev ev' hev
  show (_ && observationMatches _ _ ev.fiveTuple) = true ↔
    (_ && observationMatches _ _ ev'.fiveTuple) = true
  rw [hev.matches_eq ha hb]
  obtain ⟨t, rfl, -⟩ := hev
  rfl

theorem sawGroundTruth_respelled (ha : p.ipAddress a = true) (hb : p.ipAddress b = true)
    {truth truth' : Iterable FiveTuple}
    (h : List.Forall₂ (RespelledTuple p a b stimulus.fiveTuple) truth.items truth'.items) :
    (Correlator.sawGroundTruth p stimulus (some truth)).1 =
      (Correlator.sawGroundTruth p stimulus (some truth')).1 := by
  refine congrArg some ?_
  show truth.items.any _ = truth'.items.any _
  generalize truth.items = items at h
  generalize truth'.items = items' at h
  induction h with
  | nil => rfl
  | cons hhead _ ih => rw [List.any_cons, List.any_cons, hhead.matches_eq ha hb, ih]

end respelled

end

/-- How far two spellings of an address are told apart. -/
structure TextualMatching (p : Platform) (a b : PyStr) : Prop where
  ipv4 : ∀ ip, ipAddress a = some (.v4 ip) → a = b
  stimulus : ∀ e (stimulus observed : FiveTuple),
    observationMatches p (stimulus.withIp e (some a)) observed =
        observationMatches p (stimulus.withIp e (some b)) observed ↔
      ¬ (SpelledOneWay a b (observed.ip e) ∧
        observationMatches p (stimulus.withIp e none) observed = true)
  observed : ∀ e (stimulus observed : FiveTuple),
    observationMatches p stimulus (observed.withIp e (some a)) =
        observationMatches p stimulus (observed.withIp e (some b)) ↔
      ¬ (SpelledOneWay a b (stimulus.ip e) ∧
        observationMatches p (stimulus.withIp e none) (observed.withIp e (some a)) = true)
  stimulus_queries : ∀ e (stimulus : Stimulus) (events : List TelemetryEvent),
    Indifferent p a b e stimulus.fiveTuple (events.map TelemetryEvent.fiveTuple) →
    (∀ c : Correlator, c.candidates p (stimulus.withIp e (some a)) events =
      c.candidates p (stimulus.withIp e (some b)) events) ∧
    ∀ eventType, findEvents p events eventType (some (stimulus.fiveTuple.withIp e (some a))) =
      findEvents p events eventType (some (stimulus.fiveTuple.withIp e (some b)))
  stimulus_truth : ∀ e (stimulus : Stimulus) (truth : Iterable FiveTuple),
    Indifferent p a b e stimulus.fiveTuple truth.items →
    (Correlator.sawGroundTruth p (stimulus.withIp e (some a)) (some truth)).1 =
      (Correlator.sawGroundTruth p (stimulus.withIp e (some b)) (some truth)).1
  observed_queries : ∀ (stimulus : Stimulus) (events events' : List TelemetryEvent),
    List.Forall₂ (RespelledEvent p a b stimulus.fiveTuple) events events' →
    (∀ c : Correlator, List.Forall₂ (RespelledEvent p a b stimulus.fiveTuple)
      (c.candidates p stimulus events) (c.candidates p stimulus events')) ∧
    ∀ eventType, List.Forall₂ (RespelledEvent p a b stimulus.fiveTuple)
      (findEvents p events eventType (some stimulus.fiveTuple))
      (findEvents p events' eventType (some stimulus.fiveTuple))
  observed_truth : ∀ (stimulus : Stimulus) (truth truth' : Iterable FiveTuple),
    List.Forall₂ (RespelledTuple p a b stimulus.fiveTuple) truth.items truth'.items →
    (Correlator.sawGroundTruth p stimulus (some truth)).1 =
      (Correlator.sawGroundTruth p stimulus (some truth')).1

/-- **Addresses are compared as text.** Of two spellings of one address the one can stand
for the other in a stimulus or an observation, except where the other side is spelled one
of the two ways and all else matches; and always if the address is an IPv4 one. -/
theorem addresses_compared_as_text (p : Platform) (a b : PyStr) (h : SameAddress a b) :
    TextualMatching p.reading a b := by
  obtain ⟨ha, hb⟩ := ipAddress_of_sameAddress (p := p) h
  constructor
  · exact fun ip => eq_of_sameAddress_v4 h
  · exact stimulus_respelled
  · exact observed_respelled ha hb
  · exact fun e stimulus events hsame => ⟨hsame.candidates_eq, hsame.findEvents_eq⟩
  · exact fun e stimulus truth hsame => hsame.sawGroundTruth_eq
  · exact fun stimulus events events' hevents =>
      ⟨candidates_respelled ha hb hevents, findEvents_respelled ha hb hevents⟩
  · exact fun stimulus truth truth' htruth => sawGroundTruth_respelled ha hb htruth

/-- Two spellings of an IPv6 address. -/
theorem addresses_compared_as_text_v6 : TextualMatching
    (Platform.reading ⟨id, id, fun _ => true⟩) "2001:db8::1".toList "2001:DB8::1".toList :=
  addresses_compared_as_text ⟨id, id, fun _ => true⟩ _ _
    ⟨.v6 0x20010db8000000000000000000000001 none, by decide, by decide⟩

/-- A stimulus for one spelling does not match the other one. -/
theorem respelled_not_matched :
    SameAddress "2001:db8::1".toList "2001:DB8::1".toList ∧
    observationMatches (Platform.reading ⟨id, id, fun _ => true⟩)
      ⟨some "2001:db8::1".toList, none, none, none, none⟩
      ⟨some "2001:db8::1".toList, none, none, none, none⟩ = true ∧
    observationMatches (Platform.reading ⟨id, id, fun _ => true⟩)
      ⟨some "2001:DB8::1".toList, none, none, none, none⟩
      ⟨some "2001:db8::1".toList, none, none, none, none⟩ = false :=
  ⟨⟨.v6 0x20010db8000000000000000000000001 none, by decide, by decide⟩, by decide, by decide⟩

end SrxProbe.Validation
