import SrxProbe.Lib.TSys
import SrxProbe.PingApp.Buckets

/-!
# Snapshots of the ping history

`save_state` beside the thread that records samples. It copies the lists of closed
buckets under the lock, but reads the current buckets and the statistics afterwards,
without it: what it writes is the memory of one instant only when no sample comes
between that the earlier parts do not show.
-/

namespace SrxProbe.PingApp

open SrxProbe.Lib

variable {ν : Type} {cfg : Settings}

/-! ## Saving in steps -/

/-- How far `save_state` has got: the lists copied, then `cur` written as well. -/
inductive Saving (ν : Type)
  | idle
  | copied (buckets : Kind → List (Bucket ν))
  | wroteCur (buckets : Kind → List (Bucket ν)) (cur : Kind → Option (Bucket ν))

/-- The memory, the save in progress and the file. `instants` is a history variable: the
memory at each instant since the save began. -/
structure Process (cfg : Settings) (ν : Type) where
  memory : State cfg ν
  saving : Saving ν
  file : Option (Saved ν)
  instants : List (State cfg ν)

/-- A sample of the other thread, or a step of `save_state`. -/
inductive Step (ν : Type)
  | record (x : Sample ν)
  | copyLists
  | writeCur
  | writeStats

namespace Process

/-- One step. The last one of a save replaces the file. -/
def step (ops : Arith ν) (p : Process cfg ν) : Step ν → Option (Process cfg ν)
  | .record x =>
      let memory := p.memory.record ops x
      some { p with memory, instants := p.instants ++ [memory] }
  | .copyLists =>
      match p.saving with
      | .idle => some { p with
          saving := .copied fun kind => (p.memory.buckets kind).items
          instants := [p.memory] }
      | _ => none
  | .writeCur =>
      match p.saving with
      | .copied buckets => some { p with saving := .wroteCur buckets p.memory.cur }
      | _ => none
  | .writeStats =>
      match p.saving with
      | .wroteCur buckets cur =>
          some { p with saving := .idle, file := some ⟨buckets, cur, p.memory.stats⟩ }
      | _ => none

/-- No save is in progress. -/
def Idle (p : Process cfg ν) : Prop := p.saving = .idle

end Process

/-- The transition system of the two threads. -/
def saveSystem (cfg : Settings) (ops : Arith ν) : TSys (Process cfg ν) (Step ν) :=
  TSys.ofFn Process.Idle (Process.step ops)

/-- A completed save: the file is the memory of one instant of it, and every closed
bucket in memory is in the file, closed or as the current one. -/
def Consistent (p : Process cfg ν) : Prop :=
  ∃ saved, p.file = some saved ∧ (∃ m ∈ p.instants, saved = m.save) ∧
    ∀ kind, ∀ b ∈ (p.memory.buckets kind).items,
      b ∈ saved.buckets kind ∨ (saved.cur kind).map Bucket.id = some b.id

/-! ## The buckets that a sample closes -/

/-- The kinds of bucket that a sample goes to. -/
def Sample.kinds : Sample ν → List Kind
  | .ping .. => [.default, .big]
  | .wifi .. => [.wifi]

def Sample.isPing : Sample ν → Bool
  | .ping .. => true
  | .wifi .. => false

/-- The bucket of a kind that a sample closes. -/
def State.closing (s : State cfg ν) (kind : Kind) (x : Sample ν) : Option (Bucket ν) :=
  match s.cur kind, bucketId cfg x.time with
  | some b, some bid => if kind ∈ x.kinds ∧ b.id ≠ bid then some b else none
  | _, _ => none

/-- What a step may do while a save is in progress: between the copy and the writing of
`cur`, a sample closes no bucket; between the writing of `cur` and of the statistics,
it is none of `worker`, and closes no bucket but one that was written as current. -/
def Undisturbed (p : Process cfg ν) : Step ν → Prop
  | .record x =>
      match p.saving with
      | .idle => True
      | .copied _ => ∀ kind, p.memory.closing kind x = none
      | .wroteCur _ cur =>
          x.isPing = false ∧
            ∀ kind b, p.memory.closing kind x = some b → (cur kind).map Bucket.id = some b.id
  | _ => True

section record

variable {ops : Arith ν} {s : State cfg ν}

/-- A sample that finds no bucket id changes no bucket, and closes none. -/
theorem record_of_zero (ops : Arith ν) (s : State cfg ν) (hsec : cfg.bucketSec = 0) (x : Sample ν)
    (kind : Kind) :
    (s.record ops x).buckets kind = s.buckets kind ∧ s.closing kind x = none := by
  have hnone : ∀ ts, bucketId cfg ts = none := fun ts => if_pos hsec
  constructor
  · cases x with
    | ping now rtt brtt berr => simp [State.record, State.recordPing, State.addToBucket, hnone]
    | wifi now signal => simp [State.record, State.recordWifi, State.addToBucket, hnone]
  · rw [State.closing, hnone]
    cases s.cur kind with
    | none => rfl
    | some b => rfl

/-- What the closed buckets of a kind become when a sample goes to it. -/
theorem roll_eq_closing (hsec : cfg.bucketSec ≠ 0) {x : Sample ν} {kind : Kind}
    (hkind : kind ∈ x.kinds) :
    s.roll kind (bucketStart cfg x.time) =
      match s.closing kind x with
      | none => s.buckets kind
      | some b => (s.buckets kind).push b := by
  have hid : bucketId cfg x.time = some (bucketStart cfg x.time) := if_neg hsec
  rw [State.roll, State.closing, hid]
  cases s.cur kind with
  | none => rfl
  | some b =>
      by_cases hb : b.id = bucketStart cfg x.time
      · simp [hb]
      · simp [hb, hkind]

/-- A sample closes at most the current bucket of each of its kinds. -/
theorem record_buckets (x : Sample ν) (kind : Kind) :
    (s.record ops x).buckets kind =
      match s.closing kind x with
      | none => s.buckets kind
      | some b => (s.buckets kind).push b := by
  by_cases hsec : cfg.bucketSec = 0
  · obtain ⟨hbuckets, hclosing⟩ := record_of_zero ops s hsec x kind
    rw [hbuckets, hclosing]
  · by_cases hkind : kind ∈ x.kinds
    · rw [← roll_eq_closing hsec hkind]
      cases x with
      | ping now rtt brtt berr =>
          simp only [State.record, State.recordPing, addToBucket_eq hsec]
          rcases List.mem_cons.mp hkind with rfl | hkind
          · rfl
          · rw [List.mem_singleton.mp hkind]
            rfl
      | wifi now signal =>
          simp only [State.record, State.recordWifi, addToBucket_eq hsec]
          rw [List.mem_singleton.mp hkind]
          rfl
    · have hclosing : s.closing kind x = none := by
        unfold State.closing
        split
        · exact if_neg fun h => hkind h.1
        · rfl
      rw [hclosing]
      cases x with
      | ping now rtt brtt berr =>
          simp only [State.record, State.recordPing, addToBucket_eq hsec]
          have hne : kind ≠ .default ∧ kind ≠ .big := by simpa [Sample.kinds] using hkind
          exact (update_of_ne _ _ hne.2).trans (update_of_ne _ _ hne.1)
      | wifi now signal =>
          simp only [State.record, State.recordWifi, addToBucket_eq hsec]
          have hne : kind ≠ .wifi := by simpa [Sample.kinds] using hkind
          exact update_of_ne _ _ hne

/-- Samples of the wireless link are not counted in the statistics. -/
theorem record_stats {x : Sample ν} (h : x.isPing = false) : (s.record ops x).stats = s.stats := by
  cases x with
  | ping now rtt brtt berr => cases h
  | wifi now signal =>
      by_cases hsec : cfg.bucketSec = 0
      · simp [State.record, State.recordWifi, State.addToBucket, bucketId, hsec]
      · simp only [State.record, State.recordWifi, addToBucket_eq hsec]

end record

/-! ## What a save has written so far -/

/-- The file under way shows the memory of one instant, as far as it is written, and no
bucket that has been closed since is missing in it. -/
def SaveInv (p : Process cfg ν) : Prop :=
  match p.saving with
  | .idle => True
  | .copied buckets =>
      p.memory ∈ p.instants ∧ ∀ kind, buckets kind = (p.memory.buckets kind).items
  | .wroteCur buckets cur =>
      (∃ m ∈ p.instants, m.save = ⟨buckets, cur, p.memory.stats⟩) ∧
        ∀ kind, ∀ b ∈ (p.memory.buckets kind).items,
          b ∈ buckets kind ∨ (cur kind).map Bucket.id = some b.id

variable {ops : Arith ν} {p p' : Process cfg ν}

theorem SaveInv.record (h : SaveInv p) {x : Sample ν} (hok : Undisturbed p (.record x))
    (hstep : p.step ops (.record x) = some p') : SaveInv p' := by
  obtain rfl := Option.some.inj hstep
  unfold SaveInv at h ⊢
  unfold Undisturbed at hok
  cases hsaving : p.saving with
  | idle => trivial
  | copied buckets =>
      rw [hsaving] at h hok
      refine ⟨List.mem_append_right _ (List.mem_singleton_self _), ?_⟩
      intro kind
      rw [record_buckets, hok kind]
      exact h.2 kind
  | wroteCur buckets cur =>
      rw [hsaving] at h hok
      obtain ⟨⟨m, hm, hsave⟩, hclosed⟩ := h
      refine ⟨⟨m, List.mem_append_left _ hm, ?_⟩, ?_⟩
      · rw [record_stats hok.1]
        exact hsave
      · intro kind b hb
        rw [record_buckets] at hb
        cases hclosing : p.memory.closing kind x with
        | none =>
            rw [hclosing] at hb
            exact hclosed kind b hb
        | some b' =>
            rw [hclosing] at hb
            have hsuffix := List.drop_suffix _ _ |>.subset hb
            rcases List.mem_append.mp hsuffix with hb | hb
            · exact hclosed kind b hb
            · rw [List.mem_singleton.mp hb]
              exact .inr (hok.2 kind b' hclosing)

theorem SaveInv.copyLists (hstep : p.step ops .copyLists = some p') : SaveInv p' := by
  unfold Process.step at hstep
  cases hsaving : p.saving with
  | idle =>
      rw [hsaving] at hstep
      obtain rfl := Option.some.inj hstep
      exact ⟨List.mem_singleton_self _, fun _ => rfl⟩
  | copied buckets =>
      rw [hsaving] at hstep
      cases hstep
  | wroteCur buckets cur =>
      rw [hsaving] at hstep
      cases hstep

/-- The memory when `cur` is written is the instant that the file shows. -/
theorem SaveInv.writeCur (h : SaveInv p) (hstep : p.step ops .writeCur = some p') :
    SaveInv p' := by
  unfold Process.step at hstep
  unfold SaveInv at h
  cases hsaving : p.saving with
  | idle =>
      rw [hsaving] at hstep
      cases hstep
  | copied buckets =>
      rw [hsaving] at hstep h
      obtain rfl := Option.some.inj hstep
      obtain ⟨hmem, hbuckets⟩ := h
      have hlists : buckets = fun kind => (p.memory.buckets kind).items := funext hbuckets
      refine ⟨⟨p.memory, hmem, ?_⟩, ?_⟩
      · rw [hlists]
        rfl
      · intro kind b hb
        rw [hbuckets kind]
        exact .inl hb
  | wroteCur buckets cur =>
      rw [hsaving] at hstep
      cases hstep

theorem SaveInv.writeStats (h : SaveInv p) (hstep : p.step ops .writeStats = some p') :
    Consistent p' ∧ SaveInv p' := by
  unfold Process.step at hstep
  unfold SaveInv at h
  cases hsaving : p.saving with
  | idle =>
      rw [hsaving] at hstep
      cases hstep
  | copied buckets =>
      rw [hsaving] at hstep
      cases hstep
  | wroteCur buckets cur =>
      rw [hsaving] at hstep h
      obtain rfl := Option.some.inj hstep
      obtain ⟨⟨m, hm, hsave⟩, hclosed⟩ := h
      exact ⟨⟨_, rfl, ⟨m, hm, hsave.symm⟩, hclosed⟩, trivial⟩

theorem saveInv_inductive :
    ((saveSystem cfg ops).restrict Undisturbed).Inductive SaveInv where
  init := by
    intro p (hinit : p.saving = .idle)
    unfold SaveInv
    rw [hinit]
    trivial
  step := by
    intro p step p' h ⟨hok, hstep⟩
    cases step with
    | record x => exact h.record hok hstep
    | copyLists => exact SaveInv.copyLists hstep
    | writeCur => exact h.writeCur hstep
    | writeStats => exact (h.writeStats hstep).2

/-- **A save that is not disturbed is consistent**, in every run whose steps disturb no
save. -/
theorem undisturbed_save_consistent {p₀ : Process cfg ν} {steps : List (Step ν)}
    (hinit : p₀.Idle)
    (hrun : ((saveSystem cfg ops).restrict Undisturbed).Run p₀ (steps ++ [.writeStats]) p) :
    Consistent p := by
  obtain ⟨m, hbefore, hlast⟩ := hrun.split
  have hm := saveInv_inductive.invariant m (hbefore.reachable (.init hinit))
  exact (hm.writeStats (TSys.run_singleton.mp hlast).2).1

/-! ## A save that loses a bucket -/

/-- Buckets of a minute, kept for a week. -/
def minutes : Settings := ⟨60, 7, by decide⟩

/-- A process just started. -/
def idleProcess : Process minutes Int := ⟨.start minutes Int 0, .idle, none, []⟩

/-- A sample of the link comes between the copy and the writing of `cur`, at `ts`. -/
def linkSteps (ts : Time) : List (Step Int) :=
  [.record (.wifi 10 (some (-50))), .copyLists, .record (.wifi ts (some (-60))), .writeCur]

theorem bucketId_minutes (ts : Time) : bucketId minutes ts = some (bucketStart minutes ts) :=
  if_neg (by decide)

theorem bucketStart_minutes : bucketStart minutes 10 = 0 ∧ bucketStart minutes 20 = 0 ∧
    bucketStart minutes 70 = 60 := by
  have h : ⌊(10 : Rat) / 60⌋ = 0 ∧ ⌊(20 : Rat) / 60⌋ = 0 ∧ ⌊(70 : Rat) / 60⌋ = 1 := by
    refine ⟨?_, ?_, ?_⟩ <;> rw [Int.floor_eq_iff] <;> norm_num
  simp [bucketStart, minutes, h]

/-- The memory after the first sample. -/
def linkMemory : State minutes Int := (State.start minutes Int 0).record intArith
  (.wifi 10 (some (-50)))

theorem linkMemory_cur :
    linkMemory.cur .wifi = some ⟨0, 1, 1, -50, some (-50), some (-50)⟩ ∧
      (∀ kind, kind ≠ .wifi → linkMemory.cur kind = none) ∧
      ∀ kind, linkMemory.buckets kind = .empty := by
  have hsec : minutes.bucketSec ≠ 0 := by decide
  simp only [linkMemory, State.record, State.recordWifi, addToBucket_eq hsec]
  refine ⟨?_, ?_, ?_⟩
  · rw [update_self, bucketStart_minutes.1]
    rfl
  · intro kind hne
    exact update_of_ne _ _ hne
  · intro kind
    by_cases hkind : kind = .wifi
    · rw [hkind, update_self]
      rfl
    · exact update_of_ne _ _ hkind

theorem linkMemory_closing {ts : Time} {bid : Int} (hbid : bucketStart minutes ts = bid) :
    linkMemory.closing .wifi (.wifi ts (some (-60))) =
      if (0 : Int) = bid then none else some ⟨0, 1, 1, -50, some (-50), some (-50)⟩ := by
  rw [State.closing, linkMemory_cur.1, bucketId_minutes]
  by_cases hzero : (0 : Int) = bid
  · rw [if_pos hzero]
    exact if_neg fun h => h.2 (hzero.trans hbid.symm)
  · rw [if_neg hzero]
    exact if_pos ⟨List.mem_singleton_self _, fun h => hzero (h.trans hbid)⟩

/-- In the same minute, the sample does not disturb the save. -/
theorem undisturbed_save_consistent_link :
    ∃ p, ((saveSystem minutes intArith).restrict Undisturbed).Run idleProcess
      (linkSteps 20 ++ [.writeStats]) p ∧ Consistent p := by
  have hquiet : ∀ kind, linkMemory.closing kind (.wifi 20 (some (-60))) = none := by
    intro kind
    by_cases hkind : kind = .wifi
    · rw [hkind, linkMemory_closing bucketStart_minutes.2.1, if_pos rfl]
    · rw [State.closing, linkMemory_cur.2.1 kind hkind]
  have hrun : ((saveSystem minutes intArith).restrict Undisturbed).Run idleProcess
      (linkSteps 20 ++ [.writeStats]) _ :=
    .cons ⟨trivial, rfl⟩ (.cons ⟨trivial, rfl⟩ (.cons ⟨hquiet, rfl⟩ (.cons ⟨trivial, rfl⟩
      (.cons ⟨trivial, rfl⟩ .nil))))
  exact ⟨_, hrun, undisturbed_save_consistent (show idleProcess.Idle from rfl) hrun⟩

/-- The memory after a sample in the next minute. -/
def nextMemory : State minutes Int := linkMemory.record intArith (.wifi 70 (some (-60)))

theorem nextMemory_closed : (nextMemory.buckets .wifi).items =
    [⟨0, 1, 1, -50, some (-50), some (-50)⟩] := by
  rw [nextMemory, record_buckets, linkMemory_closing bucketStart_minutes.2.2,
    if_neg (by decide), linkMemory_cur.2.2]
  exact Ring.push_items_of_lt _ _ (by decide)

theorem nextMemory_cur : (nextMemory.cur .wifi).map Bucket.id = some 60 := by
  have hsec : minutes.bucketSec ≠ 0 := by decide
  simp only [nextMemory, State.record, State.recordWifi, addToBucket_eq hsec, update_self,
    State.openBucket, linkMemory_cur.1, bucketStart_minutes.2.2]
  rfl

/-- In the next minute, the bucket that the sample closes is in neither part of the file. -/
theorem save_loses_bucket :
    ∃ p, (saveSystem minutes intArith).Run idleProcess (linkSteps 70 ++ [.writeStats]) p ∧
      ¬ Consistent p := by
  refine ⟨⟨nextMemory, .idle, some ⟨fun kind => (linkMemory.buckets kind).items, nextMemory.cur,
    nextMemory.stats⟩, [linkMemory, nextMemory]⟩,
    .cons rfl (.cons rfl (.cons rfl (.cons rfl (.cons rfl .nil)))), ?_⟩
  rintro ⟨saved, hsaved, -, hclosed⟩
  obtain rfl := Option.some.inj hsaved
  have hmem := nextMemory_closed.symm ▸ List.mem_singleton_self _
  rcases hclosed .wifi _ hmem with hold | hcur
  · replace hold : _ ∈ (linkMemory.buckets .wifi).items := hold
    rw [linkMemory_cur.2.2] at hold
    cases hold
  · cases nextMemory_cur.symm.trans hcur

end SrxProbe.PingApp
