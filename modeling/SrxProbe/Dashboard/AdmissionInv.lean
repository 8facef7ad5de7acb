import SrxProbe.Dashboard.Admission

/-!
# Admission is safe

At most one run is active, and it is the last one admitted. The argument is that
the holder of `RUNS_LOCK` knows more of the registry with every look, and that
what it knows stays true while it goes on: request ids never change, and a run
that has ended stays so.
-/

namespace SrxProbe.Dashboard

open SrxProbe.Lib

namespace Run

/-- No operation changes the identity of a run. -/
theorem Effect.identity {r r' : Run} {op : Op} (h : Effect r op r') :
    r'.requestId = r.requestId ∧ r'.request = r.request := by
  cases h <;> exact ⟨rfl, rfl⟩

/-- A run that has ended stays so. -/
theorem Effect.ended {r r' : Run} {op : Op} (h : Effect r op r')
    (hended : r.ended.isSome = true) : r'.ended.isSome = true := by
  cases h with
  | finish rc now recorded _ => rfl
  | _ => exact hended

end Run

/-- The request id of `call` is that of the run at `a`. -/
def Registry.matches (s : Registry) (call : Call) (a : Addr) : Prop :=
  call.requestId.isSome = true ∧ (s.heap a).requestId = call.requestId

namespace Registry

/-- What the holder of the lock knows. -/
def HolderInv (s : Registry) : Prop :=
  match s.holder with
  | .free => True
  | .scanning call rest =>
      ∃ seen, s.runs.values = seen ++ rest ∧ ∀ a ∈ seen, ¬ s.matches call a
  | .polling call rest =>
      (∀ a ∈ s.runs.values, ¬ s.matches call a) ∧
        ∃ seen, s.runs.values = seen ++ rest ∧ ∀ a ∈ seen, (s.heap a).ended.isSome = true

structure Inv (s : Registry) : Prop where
  allocated : ∀ a ∈ s.runs.values, a < s.nextAddr
  distinct : s.runs.values.Nodup
  runs : ∀ a < s.nextAddr, (s.heap a).Inv
  active : ∀ a ∈ s.runs.values, (s.heap a).ended = none → s.lastInserted = some a
  bounded : s.runs.entries.length ≤ maxRuns
  requestIds : s.runs.values.Pairwise (fun a b =>
    (s.heap a).requestId ≠ none → (s.heap a).requestId ≠ (s.heap b).requestId)
  workers : (s.starting ++ s.workers).Nodup
  admitted : ∀ a ∈ s.starting ++ s.workers, a < s.nextAddr
  holder : s.HolderInv

/-! ## Steps of the holder -/

/-- The outcomes of one look. -/
inductive Look (s : Registry) : Registry → Prop
  | conflict call a rest : s.holder = .scanning call (a :: rest) → s.matches call a →
      (s.heap a).request ≠ some call.request → Look s (s.answer call (.raised usedError))
  | repeated call a rest : s.holder = .scanning call (a :: rest) → s.matches call a →
      (s.heap a).request = some call.request → Look s (s.answer call (.existing a))
  | other call a rest : s.holder = .scanning call (a :: rest) → ¬ s.matches call a →
      Look s { s with holder := .scanning call rest }
  | scanned call : s.holder = .scanning call [] →
      Look s { s with holder := .polling call s.runs.values }
  | busy call a rest : s.holder = .polling call (a :: rest) → (s.heap a).ended = none →
      Look s (s.answer call (.raised activeError))
  | ended call a rest : s.holder = .polling call (a :: rest) →
      (s.heap a).ended.isSome = true → Look s { s with holder := .polling call rest }

theorem look_cases {s s' : Registry} (h : s.look = some s') : Look s s' := by
  unfold look at h
  split at h
  · rename_i call hholder
    cases h
    exact .scanned call hholder
  · rename_i call a rest hholder
    dsimp only at h
    split at h
    · rename_i hmatch
      split at h
      · rename_i hrequest
        cases h
        exact .conflict call a rest hholder hmatch hrequest
      · rename_i hrequest
        cases h
        exact .repeated call a rest hholder hmatch (Decidable.not_not.mp hrequest)
    · rename_i hmatch
      cases h
      exact .other call a rest hholder hmatch
  · rename_i call a rest hholder
    split at h
    · rename_i hended
      cases h
      exact .busy call a rest hholder (Option.isNone_iff_eq_none.mp hended)
    · rename_i hended
      cases h
      refine .ended call a rest hholder ?_
      cases hopt : (s.heap a).ended with
      | none =>
          rw [hopt] at hended
          exact absurd rfl hended
      | some t => rfl
  · cases h

/-- The run that an insertion creates. -/
def newRun (call : Call) (id cmdline : PyStr) (now : Time) : Run :=
  { Run.new id cmdline call.request.workload now with
    requestId := call.requestId
    request := some call.request }

theorem newRun_inv (call : Call) (id cmdline : PyStr) (now : Time) :
    (newRun call id cmdline now).Inv :=
  have h := Run.Inv.new id cmdline call.request.workload now
  ⟨h.log.of_eq rfl rfl rfl, h.output.of_eq rfl rfl,
    h.subs.sublist (List.Sublist.refl _) rfl, h.latch.of_eq rfl rfl rfl rfl⟩

theorem insert_cases {s s' : Registry} {id cmdline : PyStr} {now : Time}
    (h : s.insert id cmdline now = some s') :
    ∃ call, s.holder = .polling call [] ∧ s' = { s with
      heap := update s.heap s.nextAddr (newRun call id cmdline now)
      nextAddr := s.nextAddr + 1
      runs := (s.runs.set id s.nextAddr).trim maxRuns
      starting := s.starting ++ [s.nextAddr]
      lastInserted := some s.nextAddr
      holder := .free
      answered := s.answered ++ [(call, .admitted s.nextAddr)] } := by
  unfold insert at h
  split at h
  · rename_i call hholder
    cases h
    exact ⟨call, hholder, rfl⟩
  · cases h

/-! ## Preservation -/

/-- A step of the holder that only moves it along or releases the lock. -/
theorem Inv.of_holder {s s' : Registry} (h : s.Inv) (hheap : s'.heap = s.heap)
    (hnext : s'.nextAddr = s.nextAddr) (hruns : s'.runs = s.runs)
    (hlast : s'.lastInserted = s.lastInserted) (hstarting : s'.starting = s.starting)
    (hworkers : s'.workers = s.workers) (hholder : s'.HolderInv) : s'.Inv where
  allocated := by rw [hruns, hnext]; exact h.allocated
  distinct := by rw [hruns]; exact h.distinct
  runs := by rw [hnext, hheap]; exact h.runs
  active := by rw [hruns, hheap, hlast]; exact h.active
  bounded := by rw [hruns]; exact h.bounded
  requestIds := by rw [hruns, hheap]; exact h.requestIds
  workers := by rw [hstarting, hworkers]; exact h.workers
  admitted := by rw [hstarting, hworkers, hnext]; exact h.admitted
  holder := hholder

theorem Inv.look {s s' : Registry} (h : s.Inv) (hlook : Look s s') : s'.Inv := by
  have hholder := h.holder
  cases hlook with
  | conflict call a rest _ _ _ => exact h.of_holder rfl rfl rfl rfl rfl rfl trivial
  | repeated call a rest _ _ _ => exact h.of_holder rfl rfl rfl rfl rfl rfl trivial
  | busy call a rest _ _ => exact h.of_holder rfl rfl rfl rfl rfl rfl trivial
  | other call a rest hpc hmatch =>
      refine h.of_holder rfl rfl rfl rfl rfl rfl ?_
      simp only [HolderInv, hpc] at hholder
      obtain ⟨seen, hvalues, hseen⟩ := hholder
      refine ⟨seen ++ [a], ?_, ?_⟩
      · rw [hvalues, List.append_assoc]
        rfl
      · intro b hb
        rcases List.mem_append.mp hb with hb | hb
        · exact hseen b hb
        · rw [List.mem_singleton] at hb
          exact hb ▸ hmatch
  | scanned call hpc =>
      refine h.of_holder rfl rfl rfl rfl rfl rfl ?_
      simp only [HolderInv, hpc] at hholder
      obtain ⟨seen, hvalues, hseen⟩ := hholder
      rw [List.append_nil] at hvalues
      exact ⟨fun a ha => hseen a (hvalues ▸ ha), [], rfl, nofun⟩
  | ended call a rest hpc hended =>
      refine h.of_holder rfl rfl rfl rfl rfl rfl ?_
      simp only [HolderInv, hpc] at hholder
      obtain ⟨hmatch, seen, hvalues, hseen⟩ := hholder
      refine ⟨hmatch, seen ++ [a], ?_, ?_⟩
      · rw [hvalues, List.append_assoc]
        rfl
      · intro b hb
        rcases List.mem_append.mp hb with hb | hb
        · exact hseen b hb
        · rw [List.mem_singleton] at hb
          exact hb ▸ hended

/-- At the insertion no run of the registry matches the call or is active. -/
theorem Inv.polled {s : Registry} {call : Call} (h : s.Inv) (hpc : s.holder = .polling call []) :
    (∀ a ∈ s.runs.values, ¬ s.matches call a) ∧
      ∀ a ∈ s.runs.values, (s.heap a).ended.isSome = true := by
  have hholder := h.holder
  simp only [HolderInv, hpc] at hholder
  obtain ⟨hmatch, seen, hvalues, hseen⟩ := hholder
  rw [List.append_nil] at hvalues
  exact ⟨hmatch, fun a ha => hseen a (hvalues ▸ ha)⟩

theorem Inv.insert {s s' : Registry} {id cmdline : PyStr} {now : Time} (h : s.Inv)
    (hinsert : s.insert id cmdline now = some s') : s'.Inv := by
  obtain ⟨call, hpc, rfl⟩ := insert_cases hinsert
  obtain ⟨hmatch, hended⟩ := h.polled hpc
  -- the registry after the insertion: old runs, and the new one
  have hvalues : ∀ a ∈ ((s.runs.set id s.nextAddr).trim maxRuns).values,
      a = s.nextAddr ∨ a ∈ s.runs.values := fun a ha =>
    Dict.mem_set_values ((Dict.trim_values_suffix _ _).subset ha)
  have hfresh : ∀ a ∈ s.runs.values, a ≠ s.nextAddr := fun a ha =>
    Nat.ne_of_lt (h.allocated a ha)
  have hkeep : ∀ a ∈ s.runs.values,
      update s.heap s.nextAddr (newRun call id cmdline now) a = s.heap a := fun a ha =>
    update_of_ne _ _ (hfresh a ha)
  refine ⟨?_, ?_, ?_, ?_, Dict.length_trim_le _ _, ?_, ?_, ?_, trivial⟩
  · intro a ha
    rcases hvalues a ha with rfl | ha
    · exact Nat.lt_succ_self _
    · exact Nat.lt_succ_of_lt (h.allocated a ha)
  · refine (Dict.trim_values_suffix _ _).sublist.nodup ?_
    exact Dict.set_pairwise h.distinct (fun a ha => ⟨(hfresh a ha).symm, hfresh a ha⟩)
  · intro a ha
    show (update s.heap s.nextAddr (newRun call id cmdline now) a).Inv
    by_cases heq : a = s.nextAddr
    · subst heq
      rw [update_self]
      exact newRun_inv call id cmdline now
    · rw [update_of_ne _ _ heq]
      exact h.runs a (Nat.lt_of_le_of_ne (Nat.le_of_lt_succ ha) heq)
  · intro a ha hactive
    rcases hvalues a ha with rfl | ha
    · rfl
    · -- every older run had ended
      have hsome := hended a ha
      rw [← hkeep a ha, show (update s.heap s.nextAddr _ a).ended = none from hactive] at hsome
      cases hsome
  · refine List.Pairwise.sublist (Dict.trim_values_suffix _ _).sublist ?_
    refine Dict.set_pairwise ?_ ?_
    · refine h.requestIds.imp_of_mem ?_
      intro a b ha hb hne
      dsimp only
      rw [hkeep a ha, hkeep b hb]
      exact hne
    · intro a ha
      dsimp only
      rw [update_self, hkeep a ha]
      have hne : (newRun call id cmdline now).requestId ≠ none →
          (s.heap a).requestId ≠ (newRun call id cmdline now).requestId := by
        intro hsome heq
        exact hmatch a ha ⟨Option.isSome_iff_ne_none.mpr hsome, heq⟩
      refine ⟨fun hsome heq => hne hsome heq.symm, ?_⟩
      intro hsome heq
      exact hne (heq ▸ hsome) heq
  · have hnew : s.nextAddr ∉ s.starting ++ s.workers := fun hmem =>
      Nat.lt_irrefl _ (h.admitted _ hmem)
    have hperm : ((s.starting ++ [s.nextAddr]) ++ s.workers).Perm
        (s.nextAddr :: (s.starting ++ s.workers)) := by
      rw [List.append_assoc]
      exact List.perm_middle
    exact hperm.nodup_iff.mpr (List.nodup_cons.mpr ⟨hnew, h.workers⟩)
  · intro a ha
    rcases List.mem_append.mp ha with ha | ha
    · rcases List.mem_append.mp ha with ha | ha
      · exact Nat.lt_succ_of_lt (h.admitted a (List.mem_append_left _ ha))
      · rw [List.mem_singleton] at ha
        exact ha ▸ Nat.lt_succ_self _
    · exact Nat.lt_succ_of_lt (h.admitted a (List.mem_append_right _ ha))

/-- An operation on an admitted run does not take anything from the registry. -/
theorem Inv.op {s : Registry} {a : Addr} {op : Op} {r : Run} (h : s.Inv) (ha : a < s.nextAddr)
    (hexec : (s.heap a).exec op = .ok r) :
    ({ s with heap := update s.heap a r } : Registry).Inv := by
  have hinv := h.runs a ha
  have heffect := Run.exec_effect hinv.subs.nodup hexec
  -- no operation renames a run or takes back its end, so what was seen of it stays seen
  have hid : ∀ b, (update s.heap a r b).requestId = (s.heap b).requestId := by
    intro b
    by_cases hb : b = a
    · subst hb
      rw [update_self]
      exact heffect.identity.1
    · rw [update_of_ne _ _ hb]
  have hended : ∀ b, (s.heap b).ended.isSome = true →
      (update s.heap a r b).ended.isSome = true := by
    intro b hsome
    by_cases hb : b = a
    · subst hb
      rw [update_self]
      exact heffect.ended hsome
    · rwa [update_of_ne _ _ hb]
  have hmatches : ∀ call b, ¬ s.matches call b →
      ¬ ({ s with heap := update s.heap a r } : Registry).matches call b := by
    intro call b hnot hmatch
    refine hnot ⟨hmatch.1, ?_⟩
    rw [← hid b]
    exact hmatch.2
  refine ⟨h.allocated, h.distinct, ?_, ?_, h.bounded, ?_, h.workers, h.admitted, ?_⟩
  · intro b hb
    show (update s.heap a r b).Inv
    by_cases heq : b = a
    · subst heq
      rw [update_self]
      exact hinv.exec_ok hexec
    · rw [update_of_ne _ _ heq]
      exact h.runs b hb
  · intro b hb hactive
    refine h.active b hb ?_
    cases hopt : (s.heap b).ended with
    | none => rfl
    | some t =>
        have hsome := hended b (by rw [hopt]; rfl)
        rw [show (update s.heap a r b).ended = none from hactive] at hsome
        cases hsome
  · refine h.requestIds.imp ?_
    intro b c hne
    show (update s.heap a r b).requestId ≠ none →
      (update s.heap a r b).requestId ≠ (update s.heap a r c).requestId
    rw [hid b, hid c]
    exact hne
  -- the call that holds the lock has looked at some of the runs, and what it saw still holds
  · have hholder := h.holder
    unfold HolderInv at hholder ⊢
    dsimp only
    split
    · trivial
    · rename_i call rest hpc
      rw [hpc] at hholder
      obtain ⟨seen, hvalues, hseen⟩ := hholder
      exact ⟨seen, hvalues, fun b hb => hmatches call b (hseen b hb)⟩
    · rename_i call rest hpc
      rw [hpc] at hholder
      obtain ⟨hmatch, seen, hvalues, hseen⟩ := hholder
      exact ⟨fun b hb => hmatches call b (hmatch b hb), seen, hvalues,
        fun b hb => hended b (hseen b hb)⟩

theorem Inv.step {s s' : Registry} {act : AdmitAct} (h : s.Inv) (hstep : s.step act = some s') :
    s'.Inv := by
  cases act with
  | enter call =>
      simp only [Registry.step] at hstep
      split at hstep
      · cases hstep
        exact h.of_holder rfl rfl rfl rfl rfl rfl ⟨[], rfl, nofun⟩
      · cases hstep
  | look => exact h.look (look_cases hstep)
  | insert id cmdline now => exact h.insert hstep
  | start a =>
      simp only [Registry.step] at hstep
      split at hstep
      · rename_i hmem
        cases hstep
        have hperm : (s.starting.erase a ++ (s.workers ++ [a])).Perm (s.starting ++ s.workers) := by
          rw [← List.append_assoc]
          refine (List.perm_append_comm).trans ?_
          exact (List.Perm.append_right s.workers (List.perm_cons_erase hmem)).symm
        exact ⟨h.allocated, h.distinct, h.runs, h.active, h.bounded, h.requestIds,
          hperm.nodup_iff.mpr h.workers, fun b hb => h.admitted b (hperm.mem_iff.mp hb), h.holder⟩
      · cases hstep
  | op a op =>
      simp only [Registry.step] at hstep
      split at hstep
      · rename_i ha
        split at hstep
        · rename_i r hexec
          cases hstep
          exact h.op ha hexec
        · cases hstep
      · cases hstep

theorem inv_invariant : system.Invariant Inv := by
  refine TSys.Inductive.invariant ⟨?_, fun s act s' h hstep => h.step hstep⟩
  rintro s ⟨hnext, hruns, hholder, hstarting, hworkers, hlast, -⟩
  refine ⟨?_, ?_, ?_, ?_, ?_, ?_, ?_, ?_, ?_⟩
  · rw [hruns]
    exact nofun
  · rw [hruns]
    exact List.nodup_nil
  · rw [hnext]
    exact nofun
  · rw [hruns]
    exact nofun
  · rw [hruns]
    exact Nat.zero_le _
  · rw [hruns]
    exact .nil
  · rw [hstarting, hworkers]
    exact List.nodup_nil
  · rw [hstarting, hworkers]
    exact nofun
  · rw [HolderInv, hholder]
    trivial

end Registry

end SrxProbe.Dashboard
