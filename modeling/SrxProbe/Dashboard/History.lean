import SrxProbe.Dashboard.Batch

/-!
# The history of batches

`HISTORY` in memory and `HISTORY_FILE` on disk, under finishing batches, saves that
fail at any point, and restarts. The entries a history has are a function of what
happened (`kept`): memory holds the last of them, and the file the last of those that
a restart would not lose.
-/

namespace SrxProbe.Dashboard

open SrxProbe.Lib

/-! ## The store -/

/-- `HISTORY_MAX`, from the value of `SRX_HISTORY_MAX`. -/
def historyMax (setting : Int) : Nat := (max 1 (min 100 setting)).toNat

/-- A file that a save has written: the JSON text of a history, or as many characters
of it as came out before the write failed. -/
inductive Content
  | whole (history : List BatchEntry)
  | part (history : List BatchEntry) (chars : Nat)
  deriving DecidableEq, Repr

/-- `HISTORY`, `HISTORY_FILE` and the temporary file beside it. -/
structure Store where
  history : List BatchEntry
  file : Option Content
  tmp : Option Content
  deriving DecidableEq, Repr

/-- `_load_history`. A part of a JSON list does not parse. -/
def loadHistory (limit : Nat) : Option Content → List BatchEntry
  | some (.whole history) => history.rtake (max 1 limit)
  | some (.part ..) => []
  | none => []

/-- How far a call of `_save_history` gets. -/
inductive SaveOutcome
  | failsAtOpen
  | failsAtWrite (chars : Nat)
  | failsAtReplace
  | succeeds
  deriving DecidableEq, Repr

namespace Store

/-- `_save_history(HISTORY)`. -/
def save (s : Store) : SaveOutcome → Except PyErr Unit × Store
  | .failsAtOpen => (.error .osError, s)
  | .failsAtWrite chars => (.error .osError, { s with tmp := some (.part s.history chars) })
  | .failsAtReplace => (.error .osError, { s with tmp := some (.whole s.history) })
  | .succeeds => (.ok (), { s with file := some (.whole s.history), tmp := none })

end Store

/-- `while len(HISTORY) > HISTORY_MAX: HISTORY.pop(0)`. -/
def trimHistory (limit : Nat) : List BatchEntry → List BatchEntry
  | [] => []
  | entry :: rest =>
      if limit < (entry :: rest).length then trimHistory limit rest else entry :: rest

namespace Store

/-- `record_batch`. -/
def recordBatch (s : Store) (limit : Nat) (r : Run) (later : Time) (outcome : SaveOutcome) :
    Except PyErr BatchEntry × Store :=
  match batchEntry r later with
  | .error e => (.error e, s)
  | .ok entry =>
      match Store.save { s with history := trimHistory limit (s.history ++ [entry]) } outcome with
      | (.ok (), s) => (.ok entry, s)
      | (.error e, s) => (.error e, s)

end Store

/-- A batch about to finish: a run of `all` without its terminal event. -/
structure BatchRun where
  run : Run
  inv : run.Inv
  isAll : run.workload = "all".toList
  running : run.terminal = none

namespace BatchRun

/-- The run as `finish` hands it to `record_batch`. -/
def ended (b : BatchRun) (rc : Int) (now : Time) : Run :=
  { b.run with returncode := some rc, ended := some now }

theorem entry_exists (b : BatchRun) (rc : Int) (now later : Time) :
    (batchEntry (b.ended rc now) later).toOption.isSome = true := by
  have hshort : ∀ line ∈ (b.ended rc now).lines.items, line.length ≤ maxLineChars :=
    fun line hline => b.inv.output.clipped line (b.inv.output.tail.suffix.subset hline)
  obtain ⟨entry, hentry⟩ := batchEntry_ok hshort later
  rw [hentry]
  rfl

/-- The entry of a batch. -/
def entry (b : BatchRun) (rc : Int) (now later : Time) : BatchEntry :=
  (batchEntry (b.ended rc now) later).toOption.get (b.entry_exists rc now later)

theorem batchEntry_eq (b : BatchRun) (rc : Int) (now later : Time) :
    batchEntry (b.ended rc now) later = .ok (b.entry rc now later) :=
  eq_ok_get (b.entry_exists rc now later)

end BatchRun

namespace Store

/-- `finish` on a batch: what becomes of the run, and of the store. -/
def finishBatch (s : Store) (limit : Nat) (b : BatchRun) (rc : Int) (now later : Time)
    (outcome : SaveOutcome) : Except PyErr Run × Store :=
  let recorded := s.recordBatch limit (b.ended rc now) later outcome
  (b.run.finish rc now (recorded.1.map BatchEntry.ref), recorded.2)

end Store

/-! ## What each operation does -/

theorem one_le_historyMax (setting : Int) : 1 ≤ historyMax setting := by
  unfold historyMax
  omega

theorem trimHistory_eq (limit : Nat) (history : List BatchEntry) :
    trimHistory limit history = history.rtake limit := by
  induction history with
  | nil => simp [trimHistory, List.rtake]
  | cons entry rest ih =>
      unfold trimHistory
      split
      · rename_i hlt
        rw [ih, List.rtake, List.rtake]
        have hlen : (entry :: rest).length - limit = rest.length - limit + 1 := by
          rw [List.length_cons] at hlt ⊢
          omega
        rw [hlen, List.drop_succ_cons]
      · rename_i hge
        rw [List.rtake, Nat.sub_eq_zero_of_le (Nat.not_lt.mp hge), List.drop_zero]

theorem loadHistory_whole {limit : Nat} (h : 1 ≤ limit) {history : List BatchEntry}
    (hlen : history.length ≤ limit) : loadHistory limit (some (.whole history)) = history := by
  rw [loadHistory, Nat.max_eq_right h, List.rtake, Nat.sub_eq_zero_of_le hlen, List.drop_zero]

namespace Store

/-- `record_batch` appends the entry, whatever becomes of the save, and raises when
the save does. -/
theorem recordBatch_eq (s : Store) (limit : Nat) (b : BatchRun) (rc : Int) (now later : Time)
    (outcome : SaveOutcome) :
    let history := (s.history ++ [b.entry rc now later]).rtake limit
    let result := s.recordBatch limit (b.ended rc now) later outcome
    result.1 = (if outcome = .succeeds then .ok (b.entry rc now later) else .error .osError) ∧
      result.2.history = history ∧
      result.2.file = if outcome = .succeeds then some (.whole history) else s.file := by
  simp only [recordBatch, b.batchEntry_eq, trimHistory_eq]
  cases outcome with
  | failsAtOpen => exact ⟨rfl, rfl, rfl⟩
  | failsAtWrite chars => exact ⟨rfl, rfl, rfl⟩
  | failsAtReplace => exact ⟨rfl, rfl, rfl⟩
  | succeeds => exact ⟨rfl, rfl, rfl⟩

/-- The run ends whatever becomes of the save, and its terminal event reports a failure. -/
theorem finishBatch_ends (s : Store) (limit : Nat) (b : BatchRun) (rc : Int) (now later : Time)
    (outcome : SaveOutcome) :
    ∃ r payload, (s.finishBatch limit b rc now later outcome).1 = .ok r ∧
      r.terminal = some ⟨b.run.sequence + 1, .end payload⟩ ∧
      payload.historyError = decide (outcome ≠ .succeeds) := by
  obtain ⟨hrecorded, -⟩ := recordBatch_eq s limit b rc now later outcome
  rw [finishBatch, Run.finish_eq _ _ _ _ b.inv.subs.nodup, b.running, hrecorded]
  refine ⟨_, _, rfl, rfl, ?_⟩
  show ((b.run.endPayload rc now _).historyError) = _
  unfold Run.endPayload
  rw [if_pos b.isAll]
  by_cases hsaved : outcome = .succeeds
  · rw [if_pos hsaved, decide_eq_false (not_not.mpr hsaved)]
    rfl
  · rw [if_neg hsaved, decide_eq_true hsaved]
    rfl

end Store

/-! ## Runs of the store -/

/-- What happens to a store: a batch finishes, with the outcome of its save, or the
dashboard is restarted. -/
inductive HistoryOp
  | finish (b : BatchRun) (rc : Int) (now later : Time) (outcome : SaveOutcome)
  | restart

/-- The operation saves `HISTORY`. -/
def HistoryOp.saves : HistoryOp → Bool
  | .finish _ _ _ _ outcome => outcome = .succeeds
  | .restart => false

def Store.step (limit : Nat) (s : Store) : HistoryOp → Store
  | .finish b rc now later outcome => (s.finishBatch limit b rc now later outcome).2
  | .restart => { s with history := loadHistory limit s.file }

/-- A dashboard starts without a history file, or with one that it has saved under the
same bound. -/
structure Store.Init (limit : Nat) (s : Store) : Prop where
  saved : s.file = none ∨ ∃ history, s.file = some (.whole history) ∧ history.length ≤ limit
  loaded : s.history = loadHistory limit s.file

/-- The transition system of the store, under a fixed `SRX_HISTORY_MAX`. -/
def historySystem (setting : Int) : TSys Store HistoryOp :=
  TSys.ofFn (Store.Init (historyMax setting)) fun s op => some (s.step (historyMax setting) op)

/-! ## The entries a history has -/

/-- A restart comes before the next save that succeeds. -/
def restartsUnsaved : List HistoryOp → Bool
  | [] => false
  | .restart :: _ => true
  | .finish _ _ _ _ outcome :: rest => outcome ≠ .succeeds && restartsUnsaved rest

/-- The entries of the batches that finished, in order, but for those that a restart
followed before any save succeeded. -/
def kept : List HistoryOp → List BatchEntry
  | [] => []
  | .restart :: rest => kept rest
  | .finish b rc now later outcome :: rest =>
      if outcome ≠ .succeeds && restartsUnsaved rest then kept rest
      else b.entry rc now later :: kept rest

section kept

variable {ops rest rest' : List HistoryOp}

/-- What comes before decides alike, or leaves the answer to the rest. -/
theorem restartsUnsaved_congr (h : restartsUnsaved rest = restartsUnsaved rest') :
    restartsUnsaved (ops ++ rest) = restartsUnsaved (ops ++ rest') := by
  induction ops with
  | nil => exact h
  | cons op ops ih =>
      cases op with
      | restart => rfl
      | finish b rc now later outcome =>
          rw [List.cons_append, restartsUnsaved, ih]
          rfl

theorem kept_congr (h : restartsUnsaved rest = restartsUnsaved rest')
    (hkept : kept rest = kept rest') : kept (ops ++ rest) = kept (ops ++ rest') := by
  induction ops with
  | nil => exact hkept
  | cons op ops ih =>
      cases op with
      | restart => exact ih
      | finish b rc now later outcome =>
          rw [List.cons_append, kept, restartsUnsaved_congr h, ih]
          rfl

/-- As long as no restart follows unsaved, entries only come behind others. -/
theorem kept_append (h : restartsUnsaved rest = false) :
    kept (ops ++ rest) = kept ops ++ kept rest := by
  induction ops with
  | nil => rfl
  | cons op ops ih =>
      cases op with
      | restart => exact ih
      | finish b rc now later outcome =>
          have hops : restartsUnsaved (ops ++ rest) = restartsUnsaved ops := by
            have hnil : restartsUnsaved (ops ++ rest) = restartsUnsaved (ops ++ []) :=
              restartsUnsaved_congr h
            rwa [List.append_nil] at hnil
          rw [List.cons_append, kept, hops, ih, kept]
          split
          · rfl
          · rw [List.cons_append]

variable {b : BatchRun} {rc : Int} {now later : Time} {outcome : SaveOutcome}

/-- A finished batch adds its entry behind the ones kept so far. -/
theorem kept_append_finish :
    kept (ops ++ [.finish b rc now later outcome]) = kept ops ++ [b.entry rc now later] := by
  rw [kept_append (by simp [restartsUnsaved])]
  simp [kept, restartsUnsaved]

/-- A batch that is saved makes the entries so far outlive a restart. -/
theorem kept_append_saved_restart :
    kept (ops ++ [.finish b rc now later .succeeds, .restart]) =
      kept ops ++ [b.entry rc now later] := by
  rw [kept_append (by simp [restartsUnsaved])]
  simp [kept]

/-- A batch that is not saved is lost in a restart. -/
theorem kept_append_unsaved_restart (houtcome : outcome ≠ .succeeds) :
    kept (ops ++ [.finish b rc now later outcome, .restart]) = kept (ops ++ [.restart]) := by
  apply kept_congr
  · simp [restartsUnsaved, houtcome]
  · simp [kept, restartsUnsaved, houtcome]

/-- A second restart loses nothing more. -/
theorem kept_append_restart_restart :
    kept (ops ++ [.restart, .restart]) = kept (ops ++ [.restart]) := kept_congr rfl rfl

end kept

/-! ## Memory and disk along a run -/

/-- After `ops` from `s₀`: memory holds the last entries kept, the file the last of those
that a restart would keep, and the file is whole. -/
structure HistoryInv (limit : Nat) (s₀ : Store) (ops : List HistoryOp) (s : Store) : Prop where
  memory : s.history = (s₀.history ++ kept ops).rtake limit
  disk : loadHistory limit s.file = (s₀.history ++ kept (ops ++ [.restart])).rtake limit
  whole : s.file = none ∨ ∃ history, s.file = some (.whole history) ∧ history.length ≤ limit

theorem length_rtake_le (history : List BatchEntry) (limit : Nat) :
    (history.rtake limit).length ≤ limit := by
  rw [List.rtake, List.length_drop]
  omega

theorem rtake_of_length_le {history : List BatchEntry} {limit : Nat}
    (h : history.length ≤ limit) : history.rtake limit = history := by
  rw [List.rtake, Nat.sub_eq_zero_of_le h, List.drop_zero]

theorem Store.Init.length_history {limit : Nat} {s : Store} (hlimit : 1 ≤ limit)
    (h : s.Init limit) : s.history.length ≤ limit := by
  rw [h.loaded]
  rcases h.saved with hfile | ⟨history, hfile, hlen⟩
  · rw [hfile]
    exact Nat.zero_le limit
  · rw [hfile, loadHistory_whole hlimit hlen]
    exact hlen

theorem HistoryInv.start {limit : Nat} {s : Store} (hlimit : 1 ≤ limit) (h : s.Init limit) :
    HistoryInv limit s [] s where
  memory := by
    rw [kept, List.append_nil, rtake_of_length_le (h.length_history hlimit)]
  disk := by
    rw [← h.loaded]
    show s.history = (s.history ++ []).rtake limit
    rw [List.append_nil, rtake_of_length_le (h.length_history hlimit)]
  whole := h.saved

/-- A finished batch, saved or not, goes behind what was kept. -/
theorem HistoryInv.finish {limit : Nat} {s₀ s : Store} {ops : List HistoryOp} (hlimit : 1 ≤ limit)
    (h : HistoryInv limit s₀ ops s) (b : BatchRun) (rc : Int) (now later : Time)
    (outcome : SaveOutcome) :
    HistoryInv limit s₀ (ops ++ [.finish b rc now later outcome])
      (s.finishBatch limit b rc now later outcome).2 := by
  obtain ⟨-, hhistory, hfile⟩ := Store.recordBatch_eq s limit b rc now later outcome
  have htail : (s.history ++ [b.entry rc now later]).rtake limit =
      (s₀.history ++ (kept ops ++ [b.entry rc now later])).rtake limit := by
    rw [h.memory, Ring.rtake_rtake_append, List.append_assoc]
  refine ⟨?_, ?_, ?_⟩
  · show (s.recordBatch limit (b.ended rc now) later outcome).2.history = _
    rw [hhistory, kept_append_finish, htail]
  · show loadHistory limit (s.recordBatch limit (b.ended rc now) later outcome).2.file = _
    rw [hfile, List.append_assoc, List.singleton_append]
    by_cases hsaved : outcome = .succeeds
    · rw [if_pos hsaved, loadHistory_whole hlimit (length_rtake_le _ _), hsaved,
        kept_append_saved_restart, htail]
    · rw [if_neg hsaved, kept_append_unsaved_restart hsaved, h.disk]
  · show (s.recordBatch limit (b.ended rc now) later outcome).2.file = none ∨ ∃ history,
      (s.recordBatch limit (b.ended rc now) later outcome).2.file = _ ∧ _
    rw [hfile]
    by_cases hsaved : outcome = .succeeds
    · rw [if_pos hsaved]
      exact .inr ⟨_, rfl, length_rtake_le _ _⟩
    · rw [if_neg hsaved]
      exact h.whole

/-- A restart leaves what the file holds. -/
theorem HistoryInv.restart {limit : Nat} {s₀ s : Store} {ops : List HistoryOp}
    (h : HistoryInv limit s₀ ops s) :
    HistoryInv limit s₀ (ops ++ [.restart]) { s with history := loadHistory limit s.file } where
  memory := h.disk
  disk := by
    rw [List.append_assoc, List.singleton_append, kept_append_restart_restart]
    exact h.disk
  whole := h.whole

theorem historyInv_of_run {setting : Int} {s₀ s : Store} {ops : List HistoryOp}
    (hinit : (historySystem setting).init s₀) (hrun : (historySystem setting).Run s₀ ops s) :
    HistoryInv (historyMax setting) s₀ ops s := by
  have hlimit := one_le_historyMax setting
  refine TSys.Run.induct (P := fun ops s => HistoryInv (historyMax setting) s₀ ops s)
    (HistoryInv.start hlimit hinit) ?_ hrun
  intro ops s op s' _ h hstep
  obtain rfl := Option.some.inj hstep
  cases op with
  | finish b rc now later outcome => exact h.finish hlimit b rc now later outcome
  | restart => exact h.restart

/-! ## Durability -/

/-- A file holds a history: a missing one holds the empty history. -/
def Holds (file : Option Content) (history : List BatchEntry) : Prop :=
  file = none ∧ history = [] ∨ file = some (.whole history)

/-- What holds of the store that `ops` lead to from `s₀`. -/
structure Durable (setting : Int) (s₀ : Store) (ops : List HistoryOp) (s : Store) : Prop where
  bounded : s.history.length ≤ historyMax setting
  /-- `HISTORY` is the last of the entries that finished and were not lost in a restart -/
  entries : s.history = (s₀.history ++ kept ops).rtake (historyMax setting)
  /-- a batch that finishes appends one entry, to what is trimmed by the bound -/
  appended : ∀ before b rc now later outcome,
    ops = before ++ [.finish b rc now later outcome] →
    ∃ s₁, (historySystem setting).Run s₀ before s₁ ∧
      s.history = (s₁.history ++ [b.entry rc now later]).rtake (historyMax setting)
  /-- the file is the one the store started with, as long as no save succeeds … -/
  unsaved : (∀ op ∈ ops, op.saves = false) → s.file = s₀.file
  /-- … and then it holds `HISTORY` as it was at the last save that did -/
  saved : ∀ before op after, ops = before ++ op :: after → op.saves = true →
    (∀ op ∈ after, op.saves = false) →
    ∃ s₁, (historySystem setting).Run s₀ (before ++ [op]) s₁ ∧
      (historySystem setting).Run s₁ after s ∧ s.file = some (.whole s₁.history)
  /-- the file is never a part of a history -/
  untorn : ∃ history, Holds s.file history
  /-- after a restart `HISTORY` is what the file held, and still holds -/
  restarted : ∀ before, ops = before ++ [.restart] →
    ∃ s₁, (historySystem setting).Run s₀ before s₁ ∧ Holds s₁.file s.history ∧
      s.file = s₁.file

section durable

variable {setting : Int} {s₀ s s' : Store} {ops : List HistoryOp}

theorem file_of_step {op : HistoryOp} (h : (historySystem setting).step s op s') :
    s'.file = if op.saves then some (.whole s'.history) else s.file := by
  obtain rfl := Option.some.inj h
  cases op with
  | restart => rfl
  | finish b rc now later outcome =>
      obtain ⟨-, hhistory, hfile⟩ :=
        Store.recordBatch_eq s (historyMax setting) b rc now later outcome
      show (s.recordBatch (historyMax setting) (b.ended rc now) later outcome).2.file =
        if decide (outcome = .succeeds) then
          some (.whole (s.recordBatch (historyMax setting) (b.ended rc now) later outcome).2.history)
        else s.file
      rw [hfile, hhistory]
      simp only [decide_eq_true_eq]

/-- Without a save that succeeds, the file stays as it is. -/
theorem file_of_unsaved (h : (historySystem setting).Run s ops s')
    (hops : ∀ op ∈ ops, op.saves = false) : s'.file = s.file := by
  induction h with
  | nil => rfl
  | @cons s op m ops s' hstep _ ih =>
      rw [ih fun o ho => hops o (List.mem_cons_of_mem op ho), file_of_step hstep,
        hops op List.mem_cons_self]
      rfl

theorem holds_loadHistory {limit : Nat} (hlimit : 1 ≤ limit) {file : Option Content}
    (h : file = none ∨ ∃ history, file = some (.whole history) ∧ history.length ≤ limit) :
    Holds file (loadHistory limit file) := by
  rcases h with rfl | ⟨history, rfl, hlen⟩
  · exact .inl ⟨rfl, rfl⟩
  · exact .inr (by rw [loadHistory_whole hlimit hlen])

/-- **Batch history is durable and bounded**, through saves that fail at any point and
restarts at any point. -/
theorem history_durable (hinit : (historySystem setting).init s₀)
    (hrun : (historySystem setting).Run s₀ ops s) : Durable setting s₀ ops s := by
  have hlimit := one_le_historyMax setting
  have h := historyInv_of_run hinit hrun
  refine ⟨?_, h.memory, ?_, file_of_unsaved hrun, ?_, ?_, ?_⟩
  · rw [h.memory]
    exact length_rtake_le _ _
  · intro before b rc now later outcome hops
    rw [hops] at hrun
    obtain ⟨s₁, hbefore, hlast⟩ := hrun.split
    refine ⟨s₁, hbefore, ?_⟩
    obtain rfl := Option.some.inj (TSys.run_singleton.mp hlast)
    exact (Store.recordBatch_eq s₁ (historyMax setting) b rc now later outcome).2.1
  · intro before op after hops hsaves hafter
    rw [hops, ← List.singleton_append, ← List.append_assoc] at hrun
    obtain ⟨s₁, hbefore, hrest⟩ := hrun.split
    refine ⟨s₁, hbefore, hrest, ?_⟩
    obtain ⟨s₂, -, hlast⟩ := hbefore.split
    rw [file_of_unsaved hrest hafter, file_of_step (TSys.run_singleton.mp hlast), if_pos hsaves]
  · exact ⟨_, holds_loadHistory hlimit h.whole⟩
  · intro before hops
    rw [hops] at hrun
    obtain ⟨s₁, hbefore, hlast⟩ := hrun.split
    have h₁ := historyInv_of_run hinit hbefore
    refine ⟨s₁, hbefore, ?_, ?_⟩
    · obtain rfl := Option.some.inj (TSys.run_singleton.mp hlast)
      exact holds_loadHistory hlimit h₁.whole
    · exact file_of_step (TSys.run_singleton.mp hlast)

end durable

/-- A batch whose run printed nothing. -/
def silentBatch (id : String) : BatchRun where
  run := Run.new id.toList "srx-workload".toList "all".toList 0
  inv := Run.Inv.new _ _ _ _
  isAll := rfl
  running := rfl

/-- One batch is saved, a second one is not, and a restart loses it; a third batch is
saved again. -/
def restartOps : List HistoryOp :=
  [.finish (silentBatch "a") 0 1 1 .succeeds, .finish (silentBatch "b") 0 2 2 (.failsAtWrite 7),
    .restart, .finish (silentBatch "c") 1 3 3 .succeeds]

theorem history_durable_restart :
    ∃ s, (historySystem 30).Run ⟨[], none, none⟩ restartOps s ∧
      Durable 30 ⟨[], none, none⟩ restartOps s ∧
      s.history.map BatchEntry.id = ["a".toList, "c".toList] := by
  have hrun : (historySystem 30).Run ⟨[], none, none⟩ restartOps _ :=
    .cons rfl (.cons rfl (.cons rfl (.cons rfl .nil)))
  refine ⟨_, hrun, history_durable ⟨.inl rfl, rfl⟩ hrun, ?_⟩
  rfl

end SrxProbe.Dashboard
