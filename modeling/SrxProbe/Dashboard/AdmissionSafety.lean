import Mathlib.Data.List.Pairwise
import SrxProbe.Dashboard.AdmissionInv

/-!
# What a call to `spawn_run` may rely on

The contract of admission, for every interleaving of calls with operations on
the runs: the registry's invariant in every state, and for every step what it
may do to the registry and what it may answer.
-/

namespace SrxProbe.Dashboard

open SrxProbe.Lib

namespace Registry

/-- What holds of the registry at any time. -/
structure Safe (s : Registry) : Prop where
  /-- an active run is the last one inserted, so there is at most one -/
  active : ∀ a ∈ s.runs.values, (s.heap a).ended = none → s.lastInserted = some a
  oneActive : ∀ a ∈ s.runs.values, ∀ b ∈ s.runs.values,
    (s.heap a).ended = none → (s.heap b).ended = none → a = b
  bounded : s.runs.values.length ≤ maxRuns
  requestIds : s.runs.values.Pairwise (fun a b =>
    (s.heap a).requestId ≠ none → (s.heap a).requestId ≠ (s.heap b).requestId)

/-- The registry and the workers are as before. -/
def Untouched (s s' : Registry) : Prop :=
  s'.runs = s.runs ∧ s'.heap = s.heap ∧ s'.starting = s.starting ∧ s'.workers = s.workers

/-- The answer to `call`, given in state `s`, is the right one. -/
structure Answered (s s' : Registry) (call : Call) (outcome : Outcome) : Prop where
  /-- a retry gets its run, and no worker is started -/
  repeated : ∀ a ∈ s.runs.values, s.matches call a → (s.heap a).request = some call.request →
    outcome = .existing a ∧ Untouched s s'
  conflict : ∀ a ∈ s.runs.values, s.matches call a → (s.heap a).request ≠ some call.request →
    outcome = .raised usedError ∧ Untouched s s'
  /-- any other call while a run is active -/
  busy : (∀ a ∈ s.runs.values, ¬ s.matches call a) →
    (∃ a ∈ s.runs.values, (s.heap a).ended = none) →
    outcome = .raised activeError ∧ Untouched s s'
  /-- an admitted run is in the registry, active, and will be given a worker -/
  admitted : ∀ a, outcome = .admitted a → a ∈ s'.runs.values ∧ (s'.heap a).ended = none ∧
    (s'.heap a).requestId = call.requestId ∧ (s'.heap a).request = some call.request ∧
    s'.starting = s.starting ++ [a]

/-- What one step may do. -/
structure StepSafe (s s' : Registry) : Prop where
  /-- an active run is not evicted -/
  kept : ∀ a ∈ s.runs.values, (s.heap a).ended = none → a ∈ s'.runs.values
  /-- only an admission changes the registry, so a call finds it as it was when the
  call took the lock -/
  unchanged : s'.runs = s.runs ∨
    ∃ call a, s'.answered = s.answered ++ [(call, .admitted a)]
  answers : ∀ call outcome, s'.answered = s.answered ++ [(call, outcome)] →
    Answered s s' call outcome

theorem Inv.safe {s : Registry} (h : s.Inv) : s.Safe where
  active := h.active
  oneActive := by
    intro a ha b hb hactive hactive'
    have heq := (h.active a ha hactive).symm.trans (h.active b hb hactive')
    exact Option.some.inj heq
  bounded := by
    rw [Dict.length_values]
    exact h.bounded
  requestIds := h.requestIds

/-- Two runs of the registry that match a call are one run. -/
theorem Inv.matches_unique {s : Registry} (h : s.Inv) {call : Call} {a b : Addr}
    (ha : a ∈ s.runs.values) (hb : b ∈ s.runs.values) (hma : s.matches call a)
    (hmb : s.matches call b) : a = b := by
  by_contra hne
  have hpair : s.runs.values.Pairwise (fun a b => ¬ (s.matches call a ∧ s.matches call b)) := by
    refine h.requestIds.imp ?_
    rintro a b hdiffer ⟨hma, hmb⟩
    have hsome : (s.heap a).requestId ≠ none := by
      rw [hma.2]
      exact Option.isSome_iff_ne_none.mp hma.1
    exact hdiffer hsome (hma.2.trans hmb.2.symm)
  have hsymm : Std.Symm (fun a b => ¬ (s.matches call a ∧ s.matches call b)) :=
    ⟨fun a b hnot hboth => hnot hboth.symm⟩
  exact hpair.forall ha hb hne ⟨hma, hmb⟩

theorem StepSafe.of_silent {s s' : Registry} (hruns : s'.runs = s.runs)
    (hanswered : s'.answered = s.answered) : StepSafe s s' where
  kept := fun a ha _ => hruns ▸ ha
  unchanged := .inl hruns
  answers := by
    intro call outcome heq
    rw [hanswered] at heq
    exact absurd heq (by simp)

theorem StepSafe.of_answer {s : Registry} {call : Call} {outcome : Outcome}
    (h : Answered s (s.answer call outcome) call outcome) :
    StepSafe s (s.answer call outcome) where
  kept := fun _ ha _ => ha
  unchanged := .inl rfl
  answers := by
    intro call' outcome' heq
    have hlast : [(call, outcome)] = [(call', outcome')] := List.append_cancel_left heq
    cases hlast
    exact h

theorem Inv.look_safe {s s' : Registry} (h : s.Inv) (hlook : Look s s') : StepSafe s s' := by
  have hholder := h.holder
  cases hlook with
  | other call a rest _ _ => exact .of_silent rfl rfl
  | scanned call _ => exact .of_silent rfl rfl
  | ended call a rest _ _ => exact .of_silent rfl rfl
  | conflict call a rest hpc hmatch hrequest =>
      simp only [HolderInv, hpc] at hholder
      obtain ⟨seen, hvalues, -⟩ := hholder
      have ha : a ∈ s.runs.values := hvalues ▸ List.mem_append_right _ List.mem_cons_self
      refine .of_answer ⟨?_, ?_, ?_, ?_⟩
      · intro b hb hmatch' hrequest'
        exact absurd hrequest' (h.matches_unique ha hb hmatch hmatch' ▸ hrequest)
      · exact fun _ _ _ _ => ⟨rfl, rfl, rfl, rfl, rfl⟩
      · exact fun hnone _ => absurd hmatch (hnone a ha)
      · intro b hb
        cases hb
  | repeated call a rest hpc hmatch hrequest =>
      simp only [HolderInv, hpc] at hholder
      obtain ⟨seen, hvalues, -⟩ := hholder
      have ha : a ∈ s.runs.values := hvalues ▸ List.mem_append_right _ List.mem_cons_self
      refine .of_answer ⟨?_, ?_, ?_, ?_⟩
      · intro b hb hmatch' _
        rw [h.matches_unique ha hb hmatch hmatch']
        exact ⟨rfl, rfl, rfl, rfl, rfl⟩
      · intro b hb hmatch' hrequest'
        exact absurd (h.matches_unique ha hb hmatch hmatch' ▸ hrequest) hrequest'
      · exact fun hnone _ => absurd hmatch (hnone a ha)
      · intro b hb
        cases hb
  | busy call a rest hpc hactive =>
      simp only [HolderInv, hpc] at hholder
      obtain ⟨hnone, -⟩ := hholder
      refine .of_answer ⟨?_, ?_, ?_, ?_⟩
      · exact fun b hb hmatch => absurd hmatch (hnone b hb)
      · exact fun b hb hmatch => absurd hmatch (hnone b hb)
      · exact fun _ _ => ⟨rfl, rfl, rfl, rfl, rfl⟩
      · intro b hb
        cases hb

theorem Inv.insert_safe {s s' : Registry} {id cmdline : PyStr} {now : Time} (h : s.Inv)
    (hinsert : s.insert id cmdline now = some s') : StepSafe s s' := by
  obtain ⟨call, hpc, rfl⟩ := insert_cases hinsert
  obtain ⟨hnone, hended⟩ := h.polled hpc
  have hidle : ∀ a ∈ s.runs.values, (s.heap a).ended ≠ none := by
    intro a ha hactive
    have hsome := hended a ha
    rw [hactive] at hsome
    cases hsome
  refine ⟨fun a ha hactive => absurd hactive (hidle a ha), .inr ⟨call, _, rfl⟩, ?_⟩
  intro call' outcome heq
  have hlast : [(call, Outcome.admitted s.nextAddr)] = [(call', outcome)] :=
    List.append_cancel_left heq
  cases hlast
  refine ⟨?_, ?_, ?_, ?_⟩
  · exact fun a ha hmatch => absurd hmatch (hnone a ha)
  · exact fun a ha hmatch => absurd hmatch (hnone a ha)
  · rintro - ⟨a, ha, hactive⟩
    exact absurd hactive (hidle a ha)
  · intro a ha
    cases ha
    refine ⟨Dict.mem_set_trim h.bounded maxRuns_pos _ _, ?_, ?_, ?_, rfl⟩
    · show (update s.heap s.nextAddr _ s.nextAddr).ended = none
      rw [update_self]
      rfl
    · show (update s.heap s.nextAddr _ s.nextAddr).requestId = _
      rw [update_self]
      rfl
    · show (update s.heap s.nextAddr _ s.nextAddr).request = _
      rw [update_self]
      rfl

theorem Inv.step_safe {s s' : Registry} {act : AdmitAct} (h : s.Inv)
    (hstep : s.step act = some s') : StepSafe s s' := by
  cases act with
  | enter call =>
      simp only [Registry.step] at hstep
      split at hstep
      · cases hstep
        exact .of_silent rfl rfl
      · cases hstep
  | look => exact h.look_safe (look_cases hstep)
  | insert id cmdline now => exact h.insert_safe hstep
  | start a =>
      simp only [Registry.step] at hstep
      split at hstep
      · cases hstep
        exact .of_silent rfl rfl
      · cases hstep
  | op a op =>
      simp only [Registry.step] at hstep
      split at hstep
      · split at hstep
        · cases hstep
          exact .of_silent rfl rfl
        · cases hstep
      · cases hstep

/-! ## Every call is answered -/

/-- The call that holds `RUNS_LOCK`. -/
def caller (s : Registry) : Option Call :=
  match s.holder with
  | .free => none
  | .scanning call _ => some call
  | .polling call _ => some call

/-- How many steps the holder has left at most. -/
def left (s : Registry) : Nat :=
  match s.holder with
  | .free => 0
  | .scanning _ rest => rest.length + s.runs.values.length + 2
  | .polling _ rest => rest.length + 1

/-- The action is the next one of the holder: a look, or the insertion with whatever
`uuid4`, `make_cmd` and the clock give. -/
def next (s : Registry) (act : AdmitAct) : Bool :=
  match s.holder, act with
  | .scanning _ _, .look => true
  | .polling _ (_ :: _), .look => true
  | .polling _ [], .insert .. => true
  | _, _ => false

/-- The steps of calls within the block. -/
def isOwn : AdmitAct → Bool
  | .look => true
  | .insert .. => true
  | _ => false

/-- How many steps a call that takes the lock needs at most. -/
def allowance : AdmitAct → Nat
  | .enter _ => 2 * maxRuns + 2
  | _ => 0

/-- Nothing gets stuck: who is next always has its step. -/
structure Progress (s : Registry) : Prop where
  enter : s.caller = none → ∀ call, ∃ s', s.step (.enter call) = some s' ∧ s'.caller = some call
  /-- the holder comes nearer to its answer, or is answered and releases the lock -/
  holder : ∀ call, s.caller = some call → (∃ act, s.next act = true) ∧
    ∀ act, s.next act = true → ∃ s', s.step act = some s' ∧
      (s'.caller = some call ∧ s'.answered = s.answered ∧ s'.left < s.left ∨
        s'.caller = none ∧ ∃ outcome, s'.answered = s.answered ++ [(call, outcome)])
  /-- nobody else keeps it from that -/
  others : ∀ act s', s.caller.isSome = true → s.next act = false → s.step act = some s' →
    s'.caller = s.caller ∧ s'.answered = s.answered ∧ s'.left = s.left
  start : ∀ a ∈ s.starting, ∃ s', s.step (.start a) = some s'
  op : ∀ a < s.nextAddr, ∀ op, ∃ s', s.step (.op a op) = some s'

/-- The holder looks or inserts, and is answered or has less left. -/
theorem holder_progress {s : Registry} {call : Call} (hcall : s.caller = some call)
    {act : AdmitAct} (hnext : s.next act = true) : ∃ s', s.step act = some s' ∧
      (s'.caller = some call ∧ s'.answered = s.answered ∧ s'.left < s.left ∨
        s'.caller = none ∧ ∃ outcome, s'.answered = s.answered ++ [(call, outcome)]) := by
  unfold caller at hcall
  unfold next at hnext
  cases hpc : s.holder with
  | free =>
      rw [hpc] at hcall
      cases hcall
  | scanning call' rest =>
      rw [hpc] at hcall hnext
      obtain rfl := Option.some.inj hcall
      cases act with
      | look =>
          simp only [step, look, hpc]
          cases rest with
          | nil =>
              refine ⟨_, rfl, .inl ⟨rfl, rfl, ?_⟩⟩
              simp only [left, hpc, List.length_nil]
              omega
          | cons a rest =>
              simp only
              split
              · split
                · exact ⟨_, rfl, .inr ⟨rfl, _, rfl⟩⟩
                · exact ⟨_, rfl, .inr ⟨rfl, _, rfl⟩⟩
              · refine ⟨_, rfl, .inl ⟨rfl, rfl, ?_⟩⟩
                simp only [left, hpc, List.length_cons]
                omega
      | _ => cases hnext
  | polling call' rest =>
      rw [hpc] at hcall hnext
      obtain rfl := Option.some.inj hcall
      cases rest with
      | nil =>
          cases act with
          | insert id cmdline now =>
              simp only [step, insert, hpc]
              exact ⟨_, rfl, .inr ⟨rfl, _, rfl⟩⟩
          | _ => cases hnext
      | cons a rest =>
          cases act with
          | look =>
              simp only [step, look, hpc]
              split
              · exact ⟨_, rfl, .inr ⟨rfl, _, rfl⟩⟩
              · refine ⟨_, rfl, .inl ⟨rfl, rfl, ?_⟩⟩
                simp only [left, hpc, List.length_cons]
                omega
          | _ => cases hnext

theorem exists_next {s : Registry} {call : Call} (hcall : s.caller = some call) :
    ∃ act, s.next act = true := by
  unfold caller at hcall
  cases hpc : s.holder with
  | free =>
      rw [hpc] at hcall
      cases hcall
  | scanning call' rest => exact ⟨.look, by simp only [next, hpc]⟩
  | polling call' rest =>
      cases rest with
      | nil => exact ⟨.insert [] [] 0, by simp only [next, hpc]⟩
      | cons a rest => exact ⟨.look, by simp only [next, hpc]⟩

/-- Only the holder looks or inserts. -/
theorem next_of_own {s s' : Registry} {act : AdmitAct} (hown : isOwn act = true)
    (hstep : s.step act = some s') : s.next act = true := by
  cases act with
  | look =>
      simp only [step, look] at hstep
      split at hstep
      · rename_i hpc
        simp only [next, hpc]
      · rename_i hpc
        simp only [next, hpc]
      · rename_i hpc
        simp only [next, hpc]
      · cases hstep
  | insert id cmdline now =>
      simp only [step, insert] at hstep
      split at hstep
      · rename_i hpc
        simp only [next, hpc]
      · cases hstep
  | _ => cases hown

/-- Starts of workers and operations on runs do not touch the holder. -/
theorem others_wait {s s' : Registry} {act : AdmitAct} (hcall : s.caller.isSome = true)
    (hnext : s.next act = false) (hstep : s.step act = some s') :
    s'.caller = s.caller ∧ s'.answered = s.answered ∧ s'.left = s.left := by
  have hown : isOwn act = true → s.next act = true := fun h => next_of_own h hstep
  cases act with
  | enter call =>
      simp only [step] at hstep
      split at hstep
      · rename_i hpc
        rw [caller, hpc] at hcall
        cases hcall
      · cases hstep
  | look => exact absurd (hown rfl) (Bool.eq_false_iff.mp hnext)
  | insert id cmdline now => exact absurd (hown rfl) (Bool.eq_false_iff.mp hnext)
  | start a =>
      simp only [step] at hstep
      split at hstep
      · cases hstep
        exact ⟨rfl, rfl, rfl⟩
      · cases hstep
  | op a op =>
      simp only [step] at hstep
      split at hstep
      · split at hstep
        · cases hstep
          exact ⟨rfl, rfl, rfl⟩
        · cases hstep
      · cases hstep

theorem Inv.progress {s : Registry} (h : s.Inv) : s.Progress where
  enter := by
    intro hfree call
    unfold caller at hfree
    cases hpc : s.holder with
    | free =>
        simp only [Registry.step, hpc]
        exact ⟨_, rfl, rfl⟩
    | scanning call' rest =>
        rw [hpc] at hfree
        cases hfree
    | polling call' rest =>
        rw [hpc] at hfree
        cases hfree
  holder := fun _ hcall => ⟨exists_next hcall, fun _ hnext => holder_progress hcall hnext⟩
  others := fun _ _ => others_wait
  start := by
    intro a ha
    simp only [Registry.step, if_pos ha]
    exact ⟨_, rfl⟩
  op := by
    intro a ha op
    obtain ⟨r, hr, -⟩ := (h.runs a ha).exec op
    simp only [Registry.step, if_pos ha, hr]
    exact ⟨_, rfl⟩

theorem left_of_free {s : Registry} (h : s.caller = none) : s.left = 0 := by
  unfold caller at h
  unfold left
  split at h
  · rfl
  · cases h
  · cases h

theorem left_pos {s : Registry} {call : Call} (h : s.caller = some call) : 0 < s.left := by
  unfold caller at h
  unfold left
  split at h
  · cases h
  · omega
  · omega

theorem caller_of_next {s : Registry} {act : AdmitAct} (h : s.next act = true) :
    ∃ call, s.caller = some call := by
  cases hcall : s.caller with
  | some call => exact ⟨call, rfl⟩
  | none =>
      unfold caller at hcall
      unfold next at h
      split at hcall
      · rename_i hpc
        rw [hpc] at h
        cases h
      · cases hcall
      · cases hcall

/-- A step of the holder uses up some of what taking the lock has allowed it. -/
theorem Inv.left_step {s s' : Registry} {act : AdmitAct} (h : s.Inv)
    (hstep : s.step act = some s') :
    (if isOwn act then 1 else 0) + s'.left ≤ s.left + allowance act := by
  -- a look or an insertion
  have hown : isOwn act = true → 1 + s'.left ≤ s.left := by
    intro hown
    have hnext := next_of_own hown hstep
    obtain ⟨call, hcall⟩ := caller_of_next hnext
    obtain ⟨t, ht, hcase⟩ := holder_progress hcall hnext
    obtain rfl := Option.some.inj (hstep.symm.trans ht)
    rcases hcase with ⟨-, -, hless⟩ | ⟨hfree, -⟩
    · omega
    · have := left_pos hcall
      rw [left_of_free hfree]
      omega
  cases act with
  | look => simpa [isOwn, allowance] using hown rfl
  | insert id cmdline now => simpa [isOwn, allowance] using hown rfl
  | enter call =>
      simp only [Registry.step] at hstep
      split at hstep
      · cases hstep
        have hbounded := h.bounded
        rw [← Dict.length_values] at hbounded
        simp only [isOwn, Registry.left, allowance, Bool.false_eq_true, if_false]
        omega
      · cases hstep
  | start a =>
      simp only [Registry.step] at hstep
      split at hstep
      · cases hstep
        simp [isOwn, Registry.left, allowance]
      · cases hstep
  | op a op =>
      simp only [Registry.step] at hstep
      split at hstep
      · split at hstep
        · cases hstep
          simp [isOwn, Registry.left, allowance]
        · cases hstep
      · cases hstep

/-- **Admission is safe.** In every state reachable by calls and operations on
runs, in whatever order and however interleaved, the registry is `Safe`, every
step from it is, and every call is answered: nothing gets stuck, and a call that
takes the lock makes a bounded number of steps until it releases it. -/
theorem admission_safe (s : Registry) (h : system.Reachable s) :
    s.Safe ∧ (∀ act s', s.step act = some s' → StepSafe s s') ∧ s.Progress ∧
      ∀ acts s', system.Run s acts s' →
        acts.countP isOwn + s'.left ≤ s.left + TSys.total allowance acts := by
  have hinv := inv_invariant s h
  refine ⟨hinv.safe, fun _ _ hstep => hinv.step_safe hstep, hinv.progress, ?_⟩
  intro acts s' hrun
  exact TSys.Run.count_own (fun t _ _ ht hstep => (inv_invariant t ht).left_step hstep) h hrun

def newRegistry : Registry :=
  ⟨fun _ => Run.new [] [] [] 0, 0, .empty, .free, [], [], none, []⟩

theorem newRegistry_initial : Initial newRegistry := ⟨rfl, rfl, rfl, rfl, rfl, rfl, rfl⟩

def pingCall (requestId : PyStr) (h : requestId ≠ []) : Call :=
  ⟨⟨"ping".toList, "192.0.2.1".toList, [], [], true⟩, some requestId,
    fun heq => h (Option.some.inj heq)⟩

/-- A call, its retry, and another call while the run is active. -/
theorem admission_safe_retry : ∃ s, system.Reachable s ∧
    s.answered.map Prod.snd = [.admitted 0, .existing 0, .raised activeError] ∧
    s.Safe ∧ (∀ act s', s.step act = some s' → StepSafe s s') ∧ s.Progress := by
  obtain ⟨s, hs, hanswers⟩ := TSys.exists_reachable_of_runFn (f := step)
    [.enter (pingCall "request-1".toList (by decide)), .look, .insert "a".toList [] 0,
      .start 0, .enter (pingCall "request-1".toList (by decide)), .look,
      .enter (pingCall "request-2".toList (by decide)), .look, .look, .look]
    (fun s => s.answered.map Prod.snd = [.admitted 0, .existing 0, .raised activeError])
    newRegistry_initial (by decide +kernel)
  obtain ⟨hsafe, hsteps, hprogress, -⟩ := admission_safe s hs
  exact ⟨s, hs, of_decide_eq_true hanswers, hsafe, hsteps, hprogress⟩

end Registry

end SrxProbe.Dashboard
