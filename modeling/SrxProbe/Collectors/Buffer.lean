import SrxProbe.Collectors.OneRecord

/-!
# The buffer over whole runs

What the collector's buffer holds after any sequence of calls, and what its count of
dropped events stands for. Each call holds the lock while it touches the buffer, so
calls of several threads come in some order.
-/

namespace SrxProbe.Collectors

open SrxProbe.Lib SrxProbe.Validation

/-- The arguments of `query`. -/
structure Query where
  eventType : Option PyStr
  fiveTuple : Option FiveTuple
  startTime : Option Timestamp
  endTime : Option Timestamp

/-- A call of one of the methods that use the buffer. -/
inductive Call
  | addEvent (event : TelemetryEvent)
  | clear
  | snapshot
  | query (q : Query)

namespace Collector

/-- `clear`. -/
def clear (c : Collector) : Collector := { c with events := .empty }

/-- `snapshot`: a copy of the buffer. -/
def snapshot (c : Collector) : List TelemetryEvent := c.events.items

section calls

-- `lt` is `<` on floats, also where one of them is not finite.
variable (p : Platform) (lt : Timestamp → Timestamp → Bool)

/-- `query`. -/
def query (c : Collector) (q : Query) : List TelemetryEvent :=
  c.snapshot.foldl
    (fun out ev =>
      if q.eventType.any (ev.eventType ≠ ·) then out
      else if q.fiveTuple.any (!observationMatches p · ev.fiveTuple) then out
      else if q.startTime.any (lt ev.timestamp ·) then out
      else if q.endTime.any (lt · ev.timestamp) then out
      else out ++ [ev])
    []

/-- A call: what it leaves, and what it returns. -/
def call (c : Collector) : Call → Collector × Option (List TelemetryEvent)
  | .addEvent event => (c.addEvent event, none)
  | .clear => (c.clear, none)
  | .snapshot => (c, some c.snapshot)
  | .query q => (c, some (c.query p lt q))

def run (c : Collector) (calls : List Call) : Collector :=
  calls.foldl (fun c made => (c.call p lt made).1) c

/-- How many events a call removes without counting them. -/
def removedBy (c : Collector) : Call → Nat
  | .clear => c.events.items.length
  | _ => 0

/-- How many events the clears of a run remove. -/
def cleared (c : Collector) : List Call → Nat
  | [] => 0
  | made :: calls => c.removedBy made + (c.call p lt made).1.cleared calls

end calls

end Collector

/-! ## What a run has done -/

/-- The event that a call adds. -/
def Call.event? : Call → Option TelemetryEvent
  | .addEvent event => some event
  | _ => none

def Call.isClear : Call → Bool
  | .clear => true
  | _ => false

/-- The events that a run adds. -/
def added (calls : List Call) : List TelemetryEvent := calls.filterMap Call.event?

/-- The events that a run adds behind its last clear. -/
def sinceClear (calls : List Call) : List TelemetryEvent :=
  added (calls.rtakeWhile fun made => !made.isClear)

/-- The longest end of a list that has at most `cap` items. -/
structure LongestSuffix {α : Type} (cap : Nat) (log items : List α) : Prop where
  suffix : items <:+ log
  bounded : items.length ≤ cap
  longest : ∀ other, other <:+ log → other.length ≤ cap → other.length ≤ items.length

/-- The event passes the filters that are given. -/
def Query.Selects (p : Platform) (lt : Timestamp → Timestamp → Bool) (q : Query)
    (ev : TelemetryEvent) : Prop :=
  (∀ type ∈ q.eventType, ev.eventType = type) ∧
    (∀ t ∈ q.fiveTuple, observationMatches p t ev.fiveTuple = true) ∧
    (∀ start ∈ q.startTime, lt ev.timestamp start = false) ∧
    ∀ stop ∈ q.endTime, lt stop ev.timestamp = false

instance (p : Platform) (lt : Timestamp → Timestamp → Bool) (q : Query) (ev : TelemetryEvent) :
    Decidable (q.Selects p lt ev) :=
  inferInstanceAs (Decidable (_ ∧ _ ∧ _ ∧ _))

theorem added_concat (calls : List Call) (made : Call) :
    added (calls ++ [made]) = added calls ++ made.event?.toList := by
  cases made <;> simp [added, Call.event?]

theorem sinceClear_concat_clear (calls : List Call) : sinceClear (calls ++ [.clear]) = [] := by
  rw [sinceClear, List.rtakeWhile_concat_neg _ _ _ (by simp [Call.isClear])]
  rfl

theorem sinceClear_concat {made : Call} (h : made.isClear = false) (calls : List Call) :
    sinceClear (calls ++ [made]) = sinceClear calls ++ made.event?.toList := by
  rw [sinceClear, List.rtakeWhile_concat_pos _ _ _ (by simp [h]), added_concat, sinceClear]

theorem longestSuffix_of_holds {α : Type} {cap : Nat} {r : Ring α cap} {log : List α}
    (h : r.Holds log) : LongestSuffix cap log r.items where
  suffix := h.suffix
  bounded := r.bounded
  longest := by
    intro other hsuffix hother
    have hlen := hsuffix.length_le
    rw [h.length]
    omega

namespace Collector

/-! ## Queries -/

section query

variable {p : Platform} {lt : Timestamp → Timestamp → Bool}

theorem any_eq_false_iff {α : Type} {f : α → Bool} {o : Option α} :
    o.any f = false ↔ ∀ a ∈ o, f a = false := by
  cases o <;> simp

theorem selects_iff {q : Query} {ev : TelemetryEvent} : q.Selects p lt ev ↔
    q.eventType.any (ev.eventType ≠ ·) = false ∧
      q.fiveTuple.any (!observationMatches p · ev.fiveTuple) = false ∧
      q.startTime.any (lt ev.timestamp ·) = false ∧ q.endTime.any (lt · ev.timestamp) = false := by
  simp only [any_eq_false_iff, decide_eq_false_iff_not, not_not, Bool.not_eq_false']
  exact Iff.rfl

/-- The loop of `query` keeps the events that pass. -/
theorem query_eq (c : Collector) (q : Query) :
    c.query p lt q = c.events.items.filter (q.Selects p lt) := by
  have hloop : ∀ (events out : List TelemetryEvent), events.foldl
      (fun out ev =>
        if q.eventType.any (ev.eventType ≠ ·) then out
        else if q.fiveTuple.any (!observationMatches p · ev.fiveTuple) then out
        else if q.startTime.any (lt ev.timestamp ·) then out
        else if q.endTime.any (lt · ev.timestamp) then out
        else out ++ [ev]) out = out ++ events.filter (q.Selects p lt) := by
    intro events
    induction events with
    | nil => exact fun out => (List.append_nil out).symm
    | cons ev events ih =>
        intro out
        rw [List.foldl_cons, ih]
        by_cases hselects : q.Selects p lt ev
        · obtain ⟨htype, htuple, hstart, hstop⟩ := selects_iff.mp hselects
          rw [List.filter_cons_of_pos (by simpa using hselects),
            if_neg (ne_true_of_eq_false htype), if_neg (ne_true_of_eq_false htuple),
            if_neg (ne_true_of_eq_false hstart), if_neg (ne_true_of_eq_false hstop),
            List.append_assoc]
          rfl
        · rw [List.filter_cons_of_neg (by simpa using hselects)]
          -- one of the tests skips the event
          rw [selects_iff] at hselects
          split_ifs with htype htuple hstart hstop
          · rfl
          · rfl
          · rfl
          · rfl
          · exact absurd ⟨Bool.eq_false_iff.mpr htype, Bool.eq_false_iff.mpr htuple,
              Bool.eq_false_iff.mpr hstart, Bool.eq_false_iff.mpr hstop⟩ hselects
  exact hloop c.events.items []

/-- For finite times, the bounds of a query are those of an inclusive window. -/
theorem selects_window (hlt : ∀ a b : Rat, lt (.finite a) (.finite b) = decide (a < b))
    {start stop time : Rat} {eventType : Option PyStr} {fiveTuple : Option FiveTuple}
    {ev : TelemetryEvent} (htime : ev.timestamp = .finite time) :
    Query.Selects p lt ⟨eventType, fiveTuple, some (.finite start), some (.finite stop)⟩ ev ↔
      (∀ type ∈ eventType, ev.eventType = type) ∧
        (∀ t ∈ fiveTuple, observationMatches p t ev.fiveTuple = true) ∧
        start ≤ time ∧ time ≤ stop := by
  simp [Query.Selects, htime, hlt]

end query

/-! ## Steps -/

section calls

variable {p : Platform} {lt : Timestamp → Timestamp → Bool}

theorem cleared_append (c : Collector) (calls more : List Call) :
    c.cleared p lt (calls ++ more) =
      c.cleared p lt calls + (c.run p lt calls).cleared p lt more := by
  induction calls generalizing c with
  | nil => exact (Nat.zero_add _).symm
  | cons made calls ih =>
      rw [List.cons_append, cleared, cleared, ih, ← Nat.add_assoc]
      rfl

theorem run_append (c : Collector) (calls more : List Call) :
    c.run p lt (calls ++ more) = (c.run p lt calls).run p lt more := List.foldl_append

/-- The count of dropped events never falls, and a clear does not touch it. -/
theorem droppedEvents_call (c : Collector) (made : Call) :
    c.droppedEvents ≤ (c.call p lt made).1.droppedEvents := by
  cases made with
  | addEvent event =>
      show c.droppedEvents ≤ if c.events.items.length = c.maxEvents then c.droppedEvents + 1
        else c.droppedEvents
      split <;> omega
  | clear => exact Nat.le_refl _
  | snapshot => exact Nat.le_refl _
  | query q => exact Nat.le_refl _

theorem droppedEvents_run (c : Collector) (calls : List Call) :
    c.droppedEvents ≤ (c.run p lt calls).droppedEvents := by
  induction calls generalizing c with
  | nil => exact Nat.le_refl _
  | cons made calls ih => exact (droppedEvents_call c made).trans (ih _)

/-- One call moves the events it adds into the buffer or the count, and what it clears out
of both. -/
theorem taken_call (c : Collector) (made : Call) :
    (c.call p lt made).1.taken + c.removedBy made = c.taken + made.event?.toList.length := by
  cases made with
  | addEvent event => exact taken_addEvent c event
  | clear => exact Nat.add_right_comm _ _ _
  | snapshot => rfl
  | query q => rfl

theorem maxEvents_call (c : Collector) (made : Call) :
    (c.call p lt made).1.maxEvents = c.maxEvents := by
  cases made <;> rfl

theorem maxEvents_run (c : Collector) (calls : List Call) :
    (c.run p lt calls).maxEvents = c.maxEvents := by
  induction calls generalizing c with
  | nil => rfl
  | cons made calls ih => exact (ih _).trans (maxEvents_call c made)

theorem holds_call {c : Collector} {calls : List Call} (h : c.events.Holds (sinceClear calls))
    (made : Call) : (c.call p lt made).1.events.Holds (sinceClear (calls ++ [made])) := by
  cases made with
  | addEvent event =>
      rw [sinceClear_concat rfl]
      exact h.push event
  | clear =>
      rw [sinceClear_concat_clear]
      exact Ring.Holds.empty
  | snapshot =>
      rw [sinceClear_concat rfl]
      exact (List.append_nil _).symm ▸ h
  | query q =>
      rw [sinceClear_concat rfl]
      exact (List.append_nil _).symm ▸ h

/-! ## Runs -/

/-- The buffer of a fresh collector holds, after any run, the end of what was added since
the last clear. -/
theorem holds_run {c : Collector} (hfresh : c.events.items = []) (calls : List Call) :
    (c.run p lt calls).events.Holds (sinceClear calls) := by
  induction calls using List.reverseRecOn with
  | nil =>
      show c.events.items = List.rtake [] c.maxEvents
      rw [hfresh, List.rtake_nil]
  | append_singleton calls made ih =>
      rw [run_append]
      exact holds_call ih made

/-- No event is lost between the buffer, the count and the clears. -/
theorem taken_run (c : Collector) (calls : List Call) :
    (c.run p lt calls).taken + c.cleared p lt calls = c.taken + (added calls).length := by
  induction calls using List.reverseRecOn with
  | nil => rfl
  | append_singleton calls made ih =>
      have hstep : ((c.run p lt calls).call p lt made).1.taken +
          (c.run p lt calls).removedBy made = _ := taken_call (c.run p lt calls) made
      have hcleared : (c.run p lt calls).cleared p lt [made] =
          (c.run p lt calls).removedBy made := Nat.add_zero _
      rw [run_append, cleared_append, hcleared, added_concat, List.length_append]
      show ((c.run p lt calls).call p lt made).1.taken + _ = _
      omega

end calls

/-- What holds after any run of a collector. -/
structure Accounts (p : Platform) (lt : Timestamp → Timestamp → Bool) (c : Collector)
    (calls : List Call) : Prop where
  buffer : LongestSuffix c.maxEvents (sinceClear calls) (c.run p lt calls).events.items
  grows : ∀ more,
    (c.run p lt calls).droppedEvents ≤ (c.run p lt (calls ++ more)).droppedEvents
  clear : (c.run p lt (calls ++ [.clear])).droppedEvents = (c.run p lt calls).droppedEvents
  balance : ((c.run p lt calls).droppedEvents : Int) =
    (added calls).length - (c.run p lt calls).events.items.length - c.cleared p lt calls
  snapshot : (c.run p lt calls).call p lt .snapshot =
    (c.run p lt calls, some (c.run p lt calls).events.items)
  query : ∀ q, (c.run p lt calls).call p lt (.query q) =
    (c.run p lt calls, some ((c.run p lt calls).events.items.filter (q.Selects p lt)))

/-- **The accounting is exact over whole runs**, for every capacity: the buffer is the longest
end of what was added since the last clear, the count grows only by what the buffer evicts,
and a query reads without changing. -/
theorem buffer_accounting (p : Platform) (lt : Timestamp → Timestamp → Bool) {maxEvents : Int}
    (h : 1 ≤ maxEvents) : ∃ c, Collector.new maxEvents = .ok c ∧
      (c.maxEvents : Int) = maxEvents ∧ ∀ calls, c.Accounts p lt calls := by
  have hpos : 0 < maxEvents := h
  refine ⟨⟨maxEvents.toNat, Int.lt_toNat.mpr hpos, .empty, 0, 0⟩, dif_pos hpos,
    Int.toNat_of_nonneg (by omega), fun calls => ?_⟩
  generalize hc : (⟨maxEvents.toNat, Int.lt_toNat.mpr hpos, .empty, 0, 0⟩ : Collector) = c
  have hfresh : c.events.items = [] := by
    rw [← hc]
    rfl
  have htaken : c.taken = 0 := by
    rw [← hc]
    rfl
  have hcap : (c.run p lt calls).maxEvents = c.maxEvents := maxEvents_run c calls
  have hbalance : (c.run p lt calls).taken + c.cleared p lt calls =
      c.taken + (added calls).length := taken_run c calls
  rw [htaken, taken] at hbalance
  exact
    { buffer := hcap ▸ longestSuffix_of_holds (holds_run hfresh calls)
      grows := by
        intro more
        rw [run_append]
        exact droppedEvents_run _ more
      clear := by
        rw [run_append]
        rfl
      balance := by omega
      snapshot := rfl
      query := fun q => Prod.ext rfl (congrArg some (query_eq _ q)) }

/-- An event that is known by its type. -/
def bareEvent (type : String) : TelemetryEvent :=
  ⟨type.toList, ⟨none, none, none, none, none⟩, .nonfinite, .empty, []⟩

/-- Three events overflow a buffer of two, which is cleared, and so do four more. -/
def overflowCalls : List Call :=
  ["a", "b", "c"].map (.addEvent ∘ bareEvent) ++ [.clear] ++
    ["d", "e", "f", "g"].map (.addEvent ∘ bareEvent)

theorem buffer_accounting_overflow : ∃ c, Collector.new 2 = .ok c ∧
    c.Accounts plainPlatform (fun _ _ => false) overflowCalls ∧
    let c' := c.run plainPlatform (fun _ _ => false) overflowCalls
    c'.events.items.map TelemetryEvent.eventType = ["f".toList, "g".toList] ∧
      c'.droppedEvents = 3 ∧ c.cleared plainPlatform (fun _ _ => false) overflowCalls = 2 := by
  obtain ⟨c, hnew, -, haccounts⟩ :=
    buffer_accounting plainPlatform (fun _ _ => false) (by decide : (1 : Int) ≤ 2)
  refine ⟨c, hnew, haccounts overflowCalls, ?_⟩
  cases hnew
  exact ⟨rfl, rfl, rfl⟩

/-! ## Receiving is adding -/

section receive

variable (p : Platform) (lt : Timestamp → Timestamp → Bool) (clock : Nat → Timestamp)

/-- The clock is no part of the buffer. -/
def withReads (c : Collector) (n : Nat) : Collector := { c with reads := n }

@[simp] theorem withReads_withReads (c : Collector) (m n : Nat) :
    (c.withReads m).withReads n = c.withReads n := rfl

theorem run_withReads (c : Collector) (n : Nat) (calls : List Call) :
    (c.withReads n).run p lt calls = (c.run p lt calls).withReads n := by
  induction calls generalizing c with
  | nil => rfl
  | cons made calls ih =>
      have hstep : ((c.withReads n).call p lt made).1 = (c.call p lt made).1.withReads n := by
        cases made <;> rfl
      show ((c.withReads n).call p lt made).1.run p lt calls = _
      rw [hstep]
      exact ih (c.call p lt made).1

theorem run_addEvents (c : Collector) (events : List TelemetryEvent) :
    c.run p lt (events.map .addEvent) = events.foldl addEvent c := List.foldl_map

/-- Lines that are ingested add the events that they have. -/
theorem foldl_ingest_run (c : Collector) (lines : List Bytes) :
    ∃ (events : List TelemetryEvent) (n : Nat), lines.foldl (ingest p clock) c =
      (c.run p lt (events.map .addEvent)).withReads n := by
  induction lines generalizing c with
  | nil => exact ⟨[], c.reads, rfl⟩
  | cons line lines ih =>
      obtain ⟨events, n, hrest⟩ := ih (c.ingest p clock line)
      have htick : c.tick = c.withReads (c.reads + 1) := rfl
      refine ⟨lineEvents p (clock c.reads) (decodeUtf8 line) ++ events, n, ?_⟩
      rw [List.foldl_cons, hrest, ingest_eq, ← run_addEvents p lt, htick, run_withReads,
        run_withReads, withReads_withReads, List.map_append, run_append]

/-- **A delivery is a run of `add_event`**, so its effect on the buffer is accounted for. -/
theorem receive_run (c : Collector) (d : Delivery) :
    ∃ (events : List TelemetryEvent) (n : Nat), c.receive p clock d =
      (c.run p lt (events.map .addEvent)).withReads n := by
  cases d with
  | udp d => exact foldl_ingest_run p lt clock c [d.payload.take 65535]
  | tcp recvs =>
      have hserve : c.receive p clock (.tcp recvs) = _ := serveConnection_eq p clock recvs c
      rw [hserve]
      exact foldl_ingest_run p lt clock c _

end receive

end Collector

end SrxProbe.Collectors
