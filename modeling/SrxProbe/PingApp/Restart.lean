import SrxProbe.Lib.Reduce
import SrxProbe.PingApp.Buckets

/-!
# Restarts of the ping monitor

A process restarted from its saved state beside one that never stops. The restarted one
lacks closed buckets only that are older than the retention, so no series that a client
can ask for shows a difference, then or later.
-/

namespace SrxProbe.PingApp

open SrxProbe.Lib

variable {ν : Type} {cfg : Settings}

/-! ## What happens to a process -/

/-- A sample, the periodic save of `worker`, or a stop after a completed save with the
start that follows. -/
inductive Op (ν : Type)
  | sample (x : Sample ν)
  | periodicSave (now : Time)
  | restart (now : Time)

namespace Op

/-- The clock reading of an operation. -/
def time : Op ν → Time
  | sample x => x.time
  | periodicSave now => now
  | restart now => now

def isRestart : Op ν → Bool
  | restart _ => true
  | _ => false

end Op

namespace State

def exec (ops : Arith ν) (s : State cfg ν) : Op ν → State cfg ν
  | .sample x => s.record ops x
  | .periodicSave now => s.noteSave now
  | .restart now => s.restart now

def execAll (ops : Arith ν) (s : State cfg ν) (steps : List (Op ν)) : State cfg ν :=
  steps.foldl (exec ops) s

end State

/-! ## Buckets are in order -/

/-- The buckets of each kind are in order, none of them later than `now`. -/
structure Ordered (now : Time) (s : State cfg ν) : Prop where
  sorted : ∀ kind, (s.all kind).Pairwise fun b b' => b.id ≤ b'.id
  past : ∀ kind, ∀ b ∈ s.all kind, b.id ≤ bucketStart cfg now

theorem Ordered.mono {now now' : Time} {s : State cfg ν} (h : Ordered now s) (hle : now ≤ now') :
    Ordered now' s where
  sorted := h.sorted
  past := fun kind b hb => (h.past kind b hb).trans (bucketStart_mono hle)

theorem all_congr {s s' : State cfg ν} {kind : Kind} (hcur : s'.cur kind = s.cur kind)
    (hbuckets : s'.buckets kind = s.buckets kind) : s'.all kind = s.all kind := by
  rw [State.all, State.all, hcur, hbuckets]

section addToBucket

variable {ops : Arith ν} {s s' : State cfg ν} {kind : Kind} {ts : Time} {rtt : Option ν}

theorem fold_id (b : Bucket ν) : (b.fold ops rtt).id = b.id := by
  cases rtt with
  | none => rfl
  | some rtt => rfl

theorem openBucket_id (bid : Int) : (s.openBucket ops kind bid).id = bid := by
  unfold State.openBucket
  split
  · rfl
  · split
    · assumption
    · rfl

/-- The closed buckets of a kind were all among its buckets before. -/
theorem roll_sublist (bid : Int) : (s.roll kind bid).items.Sublist (s.all kind) := by
  unfold State.roll State.all
  split
  · exact List.sublist_append_left _ _
  · rename_i b hcur
    split
    · exact List.sublist_append_left _ _
    · rw [Ring.push_items, hcur]
      exact (List.drop_suffix _ _).sublist

/-- A sample keeps the order of the buckets. -/
theorem Ordered.addToBucket {now : Time} (h : Ordered now s) (hle : now ≤ ts)
    (hadd : s.addToBucket ops kind ts rtt = some s') : Ordered ts s' := by
  by_cases hsec : cfg.bucketSec = 0
  · rw [State.addToBucket, bucketId, if_pos hsec] at hadd
    cases hadd
  · rw [addToBucket_eq hsec, Option.some.injEq] at hadd
    have h' := h.mono hle
    have hother : ∀ kind', kind' ≠ kind → s'.all kind' = s.all kind' := by
      intro kind' hne
      rw [← hadd]
      exact all_congr (update_of_ne _ _ hne) (update_of_ne _ _ hne)
    have hall : s'.all kind = (s.roll kind (bucketStart cfg ts)).items ++
        [(s.openBucket ops kind (bucketStart cfg ts)).fold ops rtt] := by
      rw [← hadd]
      show (update s.buckets kind _ kind).items ++ (update s.cur kind _ kind).toList = _
      rw [update_self, update_self]
      rfl
    have hlast : ((s.openBucket ops kind (bucketStart cfg ts)).fold ops rtt).id =
        bucketStart cfg ts := by
      rw [fold_id, openBucket_id]
    have hfront : (s.roll kind (bucketStart cfg ts)).items.Sublist (s.all kind) := roll_sublist _
    refine ⟨?_, ?_⟩
    · intro kind'
      by_cases hne : kind' = kind
      · subst hne
        rw [hall, List.pairwise_append]
        refine ⟨(h'.sorted kind').sublist hfront, List.pairwise_singleton _ _, ?_⟩
        intro b hb b' hb'
        rw [List.mem_singleton.mp hb', hlast]
        exact h'.past kind' b (hfront.subset hb)
      · rw [hother kind' hne]
        exact h'.sorted kind'
    · intro kind' b hb
      by_cases hne : kind' = kind
      · subst hne
        rw [hall] at hb
        rcases List.mem_append.mp hb with hb | hb
        · exact h'.past kind' b (hfront.subset hb)
        · rw [List.mem_singleton.mp hb, hlast]
      · rw [hother kind' hne] at hb
        exact h'.past kind' b hb

end addToBucket

/-! ## A restarted process beside the one that never stopped -/

/-- `r`, restarted, has the state of `s` but for closed buckets that the retention has
passed. -/
structure Resumed (now : Time) (s r : State cfg ν) : Prop where
  ordered : Ordered now r
  cur : r.cur = s.cur
  tail : ∀ kind, ∃ front, (s.buckets kind).items = front ++ (r.buckets kind).items ∧
    ∀ b ∈ front, (b.id : Rat) < retainFloor cfg now
  stats : r.stats = { s.stats with lastSave := r.stats.lastSave }

theorem retainFloor_mono {now now' : Time} (h : now ≤ now') :
    retainFloor cfg now ≤ retainFloor cfg now' := sub_le_sub_right h _

theorem Resumed.mono {now now' : Time} {s r : State cfg ν} (h : Resumed now s r)
    (hle : now ≤ now') : Resumed now' s r where
  ordered := h.ordered.mono hle
  cur := h.cur
  tail := by
    intro kind
    obtain ⟨front, hitems, hold⟩ := h.tail kind
    exact ⟨front, hitems, fun b hb => (hold b hb).trans_le (retainFloor_mono hle)⟩
  stats := h.stats

theorem Resumed.start (now t₀ : Time) :
    Resumed now (State.start cfg ν t₀) (State.start cfg ν t₀) where
  ordered := ⟨fun _ => List.Pairwise.nil, fun _ _ hb => by cases hb⟩
  cur := rfl
  tail := fun _ => ⟨[], rfl, fun _ hb => by cases hb⟩
  stats := rfl

section steps

variable {ops : Arith ν} {now ts : Time} {s r : State cfg ν}

/-- Statistics that do not depend on `_last_save` stay in step. -/
theorem Resumed.count (h : Resumed now s r) (count : Stats → Stats)
    (hcount : ∀ st last, count { st with lastSave := last } = { count st with lastSave := last }) :
    Resumed now { s with stats := count s.stats } { r with stats := count r.stats } where
  ordered := ⟨h.ordered.sorted, h.ordered.past⟩
  cur := h.cur
  tail := h.tail
  stats := by
    show count r.stats = { count s.stats with lastSave := (count r.stats).lastSave }
    rw [h.stats, hcount]

theorem Resumed.roll (h : Resumed now s r) (kind : Kind) (bid : Int) :
    ∃ front, (s.roll kind bid).items = front ++ (r.roll kind bid).items ∧
      ∀ b ∈ front, (b.id : Rat) < retainFloor cfg now := by
  obtain ⟨front, hitems, hold⟩ := h.tail kind
  unfold State.roll
  rw [h.cur]
  cases s.cur kind with
  | none => exact ⟨front, hitems, hold⟩
  | some b =>
      by_cases hid : b.id = bid
      · simp only [hid, if_true]
        exact ⟨front, hitems, hold⟩
      · simp only [hid, if_false]
        obtain ⟨rest, hrest, hpush⟩ := Ring.push_tail hitems b
        exact ⟨rest, hpush, fun b hb => hold b (hrest.subset hb)⟩

/-- A sample goes to the same bucket in both. -/
theorem Resumed.addToBucket (ops : Arith ν) (h : Resumed now s r) (hle : now ≤ ts) (kind : Kind)
    (rtt : Option ν) :
    s.addToBucket ops kind ts rtt = none ∧ r.addToBucket ops kind ts rtt = none ∨
      ∃ s' r', s.addToBucket ops kind ts rtt = some s' ∧ r.addToBucket ops kind ts rtt = some r' ∧
        Resumed ts s' r' := by
  by_cases hsec : cfg.bucketSec = 0
  · left
    simp [State.addToBucket, bucketId, hsec]
  · right
    refine ⟨_, _, addToBucket_eq hsec, addToBucket_eq hsec, ?_⟩
    have h' := h.mono hle
    have hopen : r.openBucket ops kind (bucketStart cfg ts) =
        s.openBucket ops kind (bucketStart cfg ts) := by
      unfold State.openBucket
      rw [h.cur]
    refine ⟨h.ordered.addToBucket hle (addToBucket_eq hsec), ?_, ?_, h.stats⟩
    · show update r.cur kind _ = update s.cur kind _
      rw [h.cur, hopen]
    · intro kind'
      by_cases hne : kind' = kind
      · subst hne
        simp only [update_self]
        exact h'.roll kind' _
      · simp only [update_of_ne _ _ hne]
        exact h'.tail kind'

theorem Resumed.record (h : Resumed now s r) (x : Sample ν) (hle : now ≤ x.time) :
    Resumed x.time (s.record ops x) (r.record ops x) := by
  cases x with
  | ping ts rtt brtt berr =>
      replace hle : now ≤ ts := hle
      have hcount := h.count (fun st => { st with
        sent := st.sent + 1
        recv := st.recv + (if rtt.isSome then 1 else 0)
        bigSent := st.bigSent + 1
        bigRecv := st.bigRecv + (if brtt.isSome then 1 else 0)
        bigErr := berr }) fun _ _ => rfl
      simp only [State.record, State.recordPing]
      rcases hcount.addToBucket ops hle .default rtt with
        ⟨hs, hr⟩ | ⟨s₁, r₁, hs, hr, h₁⟩
      · rw [hs, hr]
        exact hcount.mono hle
      · rw [hs, hr]
        rcases h₁.addToBucket ops le_rfl .big brtt with ⟨hs, hr⟩ | ⟨s₂, r₂, hs, hr, h₂⟩
        · simp only [hs, hr]
          exact h₁
        · simp only [hs, hr]
          exact h₂
  | wifi ts signal =>
      replace hle : now ≤ ts := hle
      simp only [State.record, State.recordWifi]
      rcases h.addToBucket ops hle .wifi signal with ⟨hs, hr⟩ | ⟨s', r', hs, hr, h'⟩
      · rw [hs, hr]
        exact h.mono hle
      · rw [hs, hr]
        exact h'

/-- A restart takes over all but the closed buckets that the retention has passed. -/
theorem restart_items (r : State cfg ν) (now : Time) (kind : Kind) :
    ((r.restart now).buckets kind).items =
      (r.buckets kind).items.filter fun b => retainFloor cfg now ≤ b.id := by
  have hholds : ((r.restart now).buckets kind).Holds
      ([] ++ (r.buckets kind).items.filter fun b => retainFloor cfg now ≤ b.id) :=
    Ring.Holds.empty.pushAll _
  rw [hholds, List.nil_append, List.rtake, Nat.sub_eq_zero_of_le, List.drop_zero]
  exact (List.length_filter_le _ _).trans (r.buckets kind).bounded

/-- A restart of the restarted process changes nothing that matters. -/
theorem Resumed.restart (h : Resumed now s r) (hle : now ≤ ts) :
    Resumed ts s (r.restart ts) := by
  have h' := h.mono hle
  have hsub : ∀ kind, ((r.restart ts).all kind).Sublist (r.all kind) := by
    intro kind
    rw [State.all, restart_items]
    exact List.filter_sublist.append_right _
  refine ⟨⟨?_, ?_⟩, h.cur, ?_, ?_⟩
  · exact fun kind => (h'.ordered.sorted kind).sublist (hsub kind)
  · exact fun kind b hb => h'.ordered.past kind b ((hsub kind).subset hb)
  · intro kind
    obtain ⟨front, hitems, hold⟩ := h'.tail kind
    have hsorted : (r.buckets kind).items.Pairwise fun b b' => b.id ≤ b'.id :=
      (h.ordered.sorted kind).sublist (List.sublist_append_left _ _)
    have hlater : (r.buckets kind).items.Pairwise fun b b' =>
        decide (retainFloor cfg ts ≤ b.id) = true → decide (retainFloor cfg ts ≤ b'.id) = true := by
      refine hsorted.imp fun {b b'} hle hfloor => ?_
      rw [decide_eq_true_eq] at hfloor ⊢
      exact hfloor.trans (by exact_mod_cast hle)
    obtain ⟨passed, hsplit, hpassed⟩ := exists_filter_suffix hlater
    refine ⟨front ++ passed, ?_, ?_⟩
    · rw [restart_items, List.append_assoc, ← hsplit]
      exact hitems
    · intro b hb
      rcases List.mem_append.mp hb with hb | hb
      · exact hold b hb
      · exact not_le.mp (of_decide_eq_false (hpassed b hb))
  · show ({ r.stats with lastSave := _ } : Stats) = _
    rw [h.stats]
    rfl

/-- One operation, which the process that never stops takes unless it is a restart. -/
theorem Resumed.exec (ops : Arith ν) (h : Resumed now s r) (step : Op ν) (hle : now ≤ step.time) :
    Resumed step.time (if step.isRestart then s else s.exec ops step) (r.exec ops step) := by
  cases step with
  | sample x => exact h.record x hle
  | periodicSave ts =>
      have hmono := h.mono hle
      refine ⟨⟨hmono.ordered.sorted, hmono.ordered.past⟩, h.cur, hmono.tail, ?_⟩
      show ({ r.stats with lastSave := some ts } : Stats) = _
      rw [h.stats]
      rfl
  | restart ts => exact h.restart hle

end steps

/-- The operations without the restarts. -/
def withoutRestarts (steps : List (Op ν)) : List (Op ν) := steps.filter fun x => !x.isRestart

theorem Resumed.execAll (ops : Arith ν) {now later : Time} {s r : State cfg ν}
    (h : Resumed now s r) (steps : List (Op ν))
    (horder : (now :: steps.map Op.time ++ [later]).Pairwise (· ≤ ·)) :
    Resumed later (s.execAll ops (withoutRestarts steps)) (r.execAll ops steps) := by
  induction steps generalizing now s r with
  | nil => exact h.mono (by simpa using horder)
  | cons step steps ih =>
      obtain ⟨hle, horder⟩ := List.pairwise_cons.mp horder
      have hstep := h.exec ops step (hle step.time (by simp))
      have hrest := ih hstep horder
      unfold withoutRestarts at hrest ⊢
      cases hrestart : step.isRestart with
      | true =>
          rw [List.filter_cons_of_neg (by simp [hrestart])]
          rw [hrestart, if_pos rfl] at hrest
          exact hrest
      | false =>
          rw [List.filter_cons_of_pos (by simp [hrestart])]
          rw [hrestart, if_neg Bool.false_ne_true] at hrest
          exact hrest

/-- No series within the retention shows a difference. -/
theorem Resumed.bucketSeries {ops : Arith ν} {now : Time} {s r : State cfg ν}
    (h : Resumed now s r) (kind : Kind) {hours : Rat} (hhours : hours ≤ 24 * cfg.retainDays) :
    r.bucketSeries ops kind hours now = s.bucketSeries ops kind hours now := by
  obtain ⟨front, hitems, hold⟩ := h.tail kind
  have hall : s.all kind = front ++ r.all kind := by
    rw [State.all, hitems, State.all, h.cur, List.append_assoc]
  have hcutoff : retainFloor cfg now ≤ now - hours * 3600 := by
    unfold retainFloor
    linarith
  have hfront : front.filter (fun b => ¬ (b.id : Rat) < now - hours * 3600) = [] := by
    rw [List.filter_eq_nil_iff]
    intro b hb
    have hcut : (b.id : Rat) < now - hours * 3600 := (hold b hb).trans_le hcutoff
    rw [decide_eq_true_eq]
    exact not_not.mpr hcut
  simp only [State.bucketSeries]
  rw [hall, List.filter_append, hfront, List.nil_append]

/-- **A restart is invisible.** However often the process is stopped after a completed
save and started again, every series within the retention and the counters are those of
the process that was never stopped. -/
theorem restart_invisible (ops : Arith ν) (t₀ now : Time) (steps : List (Op ν))
    (horder : (steps.map Op.time ++ [now]).Pairwise (· ≤ ·)) :
    let s := (State.start cfg ν t₀).execAll ops (withoutRestarts steps)
    let r := (State.start cfg ν t₀).execAll ops steps
    (∀ kind, ∀ hours : Rat, hours ≤ 24 * cfg.retainDays →
      r.bucketSeries ops kind hours now = s.bucketSeries ops kind hours now) ∧
    r.stats.sent = s.stats.sent ∧ r.stats.recv = s.stats.recv ∧
    r.stats.bigSent = s.stats.bigSent ∧ r.stats.bigRecv = s.stats.bigRecv := by
  -- nothing is in the buckets before the first operation, whenever that is
  obtain ⟨first, hfirst⟩ : ∃ first, ∀ t ∈ steps.map Op.time ++ [now], first ≤ t := by
    cases steps with
    | nil => exact ⟨now, by simp⟩
    | cons step steps =>
        refine ⟨step.time, ?_⟩
        intro t ht
        rcases List.mem_cons.mp ht with rfl | ht
        · exact le_rfl
        · exact (List.pairwise_cons.mp horder).1 t ht
  have hstart : Resumed first (State.start cfg ν t₀) (State.start cfg ν t₀) :=
    Resumed.start first t₀
  have h := hstart.execAll ops steps (List.pairwise_cons.mpr ⟨hfirst, horder⟩)
  refine ⟨fun kind hours hhours => h.bucketSeries kind hhours, ?_⟩
  rw [h.stats]
  exact ⟨rfl, rfl, rfl, rfl⟩

/-- Hourly buckets, kept for a day. -/
def hourly : Settings := ⟨3600, 1, by decide⟩

/-- Two samples, a restart a day later, and a third sample. -/
def dayOps : List (Op Int) :=
  [.sample (.ping 0 (some 5) none []), .sample (.ping 4000 (some 7) (some 9) []),
    .restart 90100, .sample (.ping 90200 none (some 8) [])]

theorem restart_invisible_day :
    let s := (State.start hourly Int 0).execAll intArith (withoutRestarts dayOps)
    let r := (State.start hourly Int 0).execAll intArith dayOps
    r.bucketSeries intArith .default 24 90300 = s.bucketSeries intArith .default 24 90300 ∧
      r.stats.sent = 3 ∧ s.stats.sent = 3 := by
  have h := @restart_invisible Int hourly intArith 0 90300 dayOps
    (by simp [dayOps, Op.time, Sample.time]; norm_num)
  have hsent : ((State.start hourly Int 0).execAll intArith dayOps).stats.sent = 3 := by
    simp [dayOps, State.execAll, State.exec, State.record, State.recordPing, State.restart,
      State.load, State.save, State.start, State.addToBucket, bucketId, hourly]
  exact ⟨h.1 .default 24 (by norm_num [hourly]), hsent, h.2.1 ▸ hsent⟩

end SrxProbe.PingApp
