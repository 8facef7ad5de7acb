import SrxProbe.Dashboard.History
import SrxProbe.Lib.JsonStable

/-!
# The history as text

`HISTORY_FILE` is a text that is printed and parsed, and a dashboard may find any text there that
escapes no surrogate alone. The entries outlive a restart because what is printed is read back:
the store of histories is refined by a store of texts, with a file that starts out as such a text.
-/

namespace SrxProbe.Dashboard

open SrxProbe.Lib

/-! ## Entries as JSON -/

/-- The text of `execution_status`. -/
def ExecutionStatus.text : ExecutionStatus → PyStr
  | .succeeded => "succeeded".toList
  | .failed => "failed".toList

/-- The text of `detection_status`. -/
def DetectionStatus.text : DetectionStatus → PyStr
  | .notEvaluated => "not_evaluated".toList

section store

-- `timeRepr` is `repr` of the float that seconds are rounded to, `floatRepr` is
-- `repr(float(text))`.
variable (timeRepr : Time → PyStr) (floatRepr : PyStr → PyStr)

/-- A result of `parse_batch_from_lines`. -/
def BatchRow.value (row : BatchRow) : PyValue :=
  .dict [("name".toList, .str row.name), ("rc".toList, .int row.rc),
    ("elapsed".toList, .float (timeRepr row.elapsed)), ("ok".toList, .bool row.ok),
    ("execution_status".toList, .str row.executionStatus.text),
    ("detection_status".toList, .str row.detectionStatus.text), ("error".toList, .str row.error)]

/-- The `entry` of `record_batch`. -/
def BatchEntry.value (entry : BatchEntry) : PyValue :=
  .dict [("id".toList, .str entry.id), ("started".toList, .float (timeRepr entry.started)),
    ("ended".toList, entry.ended.elim .none fun ended => .float (timeRepr ended)),
    ("elapsed".toList, .float (timeRepr entry.elapsed)), ("rc".toList, entry.rc.elim .none .int),
    ("summary_available".toList, .bool entry.summaryAvailable),
    ("execution_status".toList, .str entry.executionStatus.text),
    ("detection_status".toList, .str entry.detectionStatus.text),
    ("total".toList, .int entry.total), ("passed".toList, .int entry.passed),
    ("failed".toList, .int entry.failed),
    ("results".toList, .list (entry.results.map (·.value timeRepr)))]

/-! ## The store of texts -/

/-- `HISTORY`, and the texts of `HISTORY_FILE` and of the temporary file beside it. -/
structure TextStore where
  history : List PyValue
  file : Option PyStr
  tmp : Option PyStr

/-- `_load_history`, of the text of the file, under a recursion limit. -/
def loadText (limit depth : Nat) : Option PyStr → Except PyErr (List PyValue)
  | none => .ok []
  | some text =>
      match Json.loads floatRepr depth text with
      | .ok (.list data) => .ok (data.rtake (max 1 limit))
      | .ok _ => .ok []
      | .error e => if e = Json.decodeError then .ok [] else .error e

/-- `while len(HISTORY) > HISTORY_MAX: HISTORY.pop(0)`. -/
def popText (limit : Nat) : List PyValue → List PyValue
  | [] => []
  | entry :: rest => if limit < (entry :: rest).length then popText limit rest else entry :: rest

namespace TextStore

/-- `_save_history(HISTORY)`. -/
def save (t : TextStore) : SaveOutcome → TextStore
  | .failsAtOpen => t
  | .failsAtWrite chars => { t with tmp := some ((Json.dumps (.list t.history)).take chars) }
  | .failsAtReplace => { t with tmp := some (Json.dumps (.list t.history)) }
  | .succeeds => { t with file := some (Json.dumps (.list t.history)), tmp := none }

/-- `finish` on a batch, which ends with an exit status or a signal, or a restart. A file that
is nested too deeply keeps a dashboard from starting. -/
def step (limit depth : Nat) (t : TextStore) : HistoryOp → Option TextStore
  | .finish b rc now later outcome =>
      if rc.natAbs ≤ 255 then
        match batchEntry (b.ended rc now) later with
        | .error _ => some t
        | .ok entry =>
            some (save { t with
              history := popText limit (t.history ++ [entry.value timeRepr]) } outcome)
      else none
  | .restart =>
      match loadText floatRepr limit depth t.file with
      | .ok history => some { t with history := history }
      | .error _ => none

/-- A dashboard has started with what it found, a text without a lone surrogate. -/
structure Init (limit depth : Nat) (t : TextStore) : Prop where
  loaded : loadText floatRepr limit depth t.file = .ok t.history
  paired : ∀ text ∈ t.file, Json.paired text = true

/-- The transition system of the store, under a fixed `SRX_HISTORY_MAX`. -/
def system (setting : Int) (depth : Nat) : TSys TextStore HistoryOp :=
  TSys.ofFn (Init floatRepr (historyMax setting) depth)
    (step timeRepr floatRepr (historyMax setting) depth)

end TextStore

end store

/-! ## Entries are read back -/

/-- The two ways a float comes to its text print it as JSON reads it. -/
structure Floats (timeRepr : Time → PyStr) (floatRepr : PyStr → PyStr) : Prop where
  texts : Json.FloatRepr floatRepr
  times : ∀ t, Json.readAtom floatRepr (Json.floatText (timeRepr t)) =
    .ok (.float (timeRepr t), [])

section prints

variable {timeRepr : Time → PyStr} {floatRepr : PyStr → PyStr}

theorem short_of_le {n k : Nat} (h : n < 10 ^ k) (hk : 0 < k) (hmax : k ≤ maxStrDigits) :
    (Nat.toDigits 10 n).length ≤ maxStrDigits := (length_toDigits_of_lt h hk).trans hmax

/-- The numbers of an entry are short. -/
structure BatchEntry.Short (entry : BatchEntry) : Prop where
  rc : ∀ rc ∈ entry.rc, (Nat.toDigits 10 rc.natAbs).length ≤ maxStrDigits
  total : (Nat.toDigits 10 entry.total).length ≤ maxStrDigits
  passed : (Nat.toDigits 10 entry.passed).length ≤ maxStrDigits
  failed : (Nat.toDigits 10 entry.failed).length ≤ maxStrDigits
  rows : ∀ row ∈ entry.results, (Nat.toDigits 10 row.rc.natAbs).length ≤ maxStrDigits

theorem BatchRow.prints (hfloats : Floats timeRepr floatRepr) {row : BatchRow}
    (h : (Nat.toDigits 10 row.rc.natAbs).length ≤ maxStrDigits) (depth : Nat) :
    Json.Prints floatRepr (depth + 1) (row.value timeRepr) := by
  refine .dict depth _ (by simp only [List.map_cons, List.map_nil]; decide) ?_
  simp only [List.forall_mem_cons, List.not_mem_nil, false_imp_iff, implies_true, and_true]
  exact ⟨.str .., .int _ _ h, .float _ _ (hfloats.times _), .bool .., .str .., .str .., .str ..⟩

theorem BatchEntry.prints (hfloats : Floats timeRepr floatRepr) {entry : BatchEntry}
    (h : entry.Short) (depth : Nat) :
    Json.Prints floatRepr (depth + 3) (entry.value timeRepr) := by
  refine .dict (depth + 2) _ (by simp only [List.map_cons, List.map_nil]; decide) ?_
  have hended : Json.Prints floatRepr (depth + 2)
      (entry.ended.elim .none fun ended => .float (timeRepr ended)) := by
    cases entry.ended with
    | none => exact .none _
    | some ended => exact .float _ _ (hfloats.times ended)
  have hrc : Json.Prints floatRepr (depth + 2) (entry.rc.elim .none .int) := by
    cases hrc : entry.rc with
    | none => exact .none _
    | some rc => exact .int _ _ (h.rc rc hrc)
  have hresults : Json.Prints floatRepr (depth + 2)
      (.list (entry.results.map (·.value timeRepr))) := by
    refine .list (depth + 1) _ ?_
    intro item hitem
    obtain ⟨row, hrow, rfl⟩ := List.mem_map.mp hitem
    exact BatchRow.prints hfloats (h.rows row hrow) depth
  simp only [List.forall_mem_cons, List.not_mem_nil, false_imp_iff, implies_true, and_true]
  exact ⟨.str .., .float _ _ (hfloats.times _), hended, .float _ _ (hfloats.times _), hrc,
    .bool .., .str .., .str .., .int _ _ h.total, .int _ _ h.passed, .int _ _ h.failed, hresults⟩

/-! ### The entry of a batch is short -/

theorem short_rowOfMatch {m : Regex.Match} {row : BatchRow} (h : rowOfMatch m = .ok row) :
    (Nat.toDigits 10 row.rc.natAbs).length ≤ maxStrDigits := by
  obtain ⟨rc, hrc, h⟩ := bind_ok_iff.mp h
  cases h
  exact length_digits_of_parseInt (orRaise_ok_iff.mp hrc)

/-- There are no more rows than lines, and each has a short number. -/
theorem short_parseBatchLines {inSummary : Bool} {lines : List PyStr} {rows : List BatchRow}
    (h : parseBatchLines inSummary lines = .ok rows) : rows.length ≤ lines.length ∧
      ∀ row ∈ rows, (Nat.toDigits 10 row.rc.natAbs).length ≤ maxStrDigits := by
  induction lines generalizing inSummary rows with
  | nil =>
      cases h
      exact ⟨Nat.le_refl _, fun row hrow => absurd hrow List.not_mem_nil⟩
  | cons line lines ih =>
      unfold parseBatchLines at h
      have hskip : ∀ {inSummary}, parseBatchLines inSummary lines = .ok rows →
          rows.length ≤ (line :: lines).length ∧
            ∀ row ∈ rows, (Nat.toDigits 10 row.rc.natAbs).length ≤ maxStrDigits :=
        fun h => ⟨(ih h).1.trans (Nat.le_succ _), (ih h).2⟩
      split at h
      · exact hskip h
      · split at h
        · exact hskip h
        · split at h
          · exact hskip h
          · obtain ⟨row, hrow, h⟩ := bind_ok_iff.mp h
            obtain ⟨rows', hrows, h⟩ := bind_ok_iff.mp h
            cases h
            obtain ⟨hlen, hshort⟩ := ih hrows
            refine ⟨Nat.succ_le_succ hlen, ?_⟩
            intro r hr
            rcases List.mem_cons.mp hr with rfl | hr
            · exact short_rowOfMatch hrow
            · exact hshort r hr

theorem short_batchEntry {r : Run} {later : Time} {entry : BatchEntry}
    (h : batchEntry r later = .ok entry) (hrc : ∀ rc ∈ r.returncode, rc.natAbs ≤ 255) :
    entry.Short := by
  obtain ⟨rows, hrows, h⟩ := bind_ok_iff.mp h
  obtain ⟨hlen, hshort⟩ := short_parseBatchLines hrows
  have hlines := hlen.trans r.lines.bounded
  have hcount : rows.countP BatchRow.ok ≤ rows.length := List.countP_le_length
  unfold maxLines at hlines
  cases h
  refine ⟨?_, ?_, ?_, ?_, hshort⟩
  · intro rc hmem
    have hle := hrc rc hmem
    exact short_of_le (k := 3) (by omega) (by decide) (by decide)
  · exact short_of_le (k := 5) (by simpa using by omega) (by decide) (by decide)
  · exact short_of_le (k := 5) (by simpa using by omega) (by decide) (by decide)
  · exact short_of_le (k := 5) (by simpa using by omega) (by decide) (by decide)

end prints

/-! ## What each operation does -/

section ops

variable {timeRepr : Time → PyStr} {floatRepr : PyStr → PyStr} {limit depth : Nat}

theorem popText_eq (limit : Nat) (history : List PyValue) :
    popText limit history = history.rtake limit := by
  induction history with
  | nil => rw [popText, List.rtake_nil]
  | cons entry rest ih =>
      unfold popText
      split
      · rename_i hlt
        have hlen : (entry :: rest).length - limit = rest.length - limit + 1 := by
          rw [List.length_cons] at hlt ⊢
          omega
        rw [ih, List.rtake, List.rtake, hlen, List.drop_succ_cons]
      · rename_i hge
        rw [List.rtake, Nat.sub_eq_zero_of_le (Nat.not_lt.mp hge), List.drop_zero]

theorem length_rtake_values_le (history : List PyValue) (limit : Nat) :
    (history.rtake limit).length ≤ limit := by
  rw [List.rtake, List.length_drop]
  omega

theorem rtake_values_of_le {history : List PyValue} (h : history.length ≤ limit) :
    history.rtake limit = history := by
  rw [List.rtake, Nat.sub_eq_zero_of_le h, List.drop_zero]

/-- A text that is read as a list is loaded up to the bound. -/
theorem loadText_list (hlimit : 1 ≤ limit) {text : PyStr} {data : List PyValue}
    (h : Json.loads floatRepr depth text = .ok (.list data)) :
    loadText floatRepr limit depth (some text) = .ok (data.rtake limit) := by
  simp only [loadText, h, Nat.max_eq_right hlimit]

theorem loadText_dumps (hlimit : 1 ≤ limit) {history : List PyValue}
    (hprints : ∀ v ∈ history, Json.Prints floatRepr depth v) (hlen : history.length ≤ limit) :
    loadText floatRepr limit (depth + 1) (some (Json.dumps (.list history))) = .ok history := by
  rw [loadText_list hlimit (Json.loads_dumps floatRepr (.list depth history hprints)),
    rtake_values_of_le hlen]

/-- Of a list that is cut off anywhere nothing is loaded. -/
theorem loadText_cut {history : List PyValue}
    (hprints : ∀ v ∈ history, Json.Prints floatRepr depth v) {s : PyStr}
    (hs : s <+: Json.dumps (.list history)) (hne : s ≠ Json.dumps (.list history)) :
    loadText floatRepr limit (depth + 1) (some s) = .ok [] := by
  have hcut := Json.loads_cut floatRepr (.list depth history hprints) (.inl ⟨history, rfl⟩) hs hne
  simp only [loadText, hcut, if_true]

/-- Whatever is loaded is bounded and can be saved. -/
theorem loadText_ok (hfloats : Floats timeRepr floatRepr) (hlimit : 1 ≤ limit)
    {file : Option PyStr} {history : List PyValue}
    (h : loadText floatRepr limit (depth + 1) file = .ok history) :
    history.length ≤ limit ∧ ∀ v ∈ history, Json.Prints floatRepr depth v := by
  have hnil : ([] : List PyValue).length ≤ limit ∧
      ∀ v ∈ ([] : List PyValue), Json.Prints floatRepr depth v :=
    ⟨Nat.zero_le limit, fun v hv => absurd hv List.not_mem_nil⟩
  cases file with
  | none =>
      cases h
      exact hnil
  | some text =>
      cases hread : Json.loads floatRepr (depth + 1) text with
      | error e =>
          simp only [loadText, hread] at h
          split at h
          · cases h
            exact hnil
          · cases h
      | ok value =>
          have hprints := Json.prints_of_loads hfloats.texts hread
          cases hprints with
          | list _ items hitems =>
              rw [loadText_list hlimit hread] at h
              cases h
              exact ⟨length_rtake_values_le _ _, fun v hv => hitems v (List.mem_of_mem_drop hv)⟩
          | _ =>
              simp only [loadText, hread] at h
              cases h
              exact hnil

/-- A batch that finishes appends its entry, and a save that succeeds prints the history. -/
theorem TextStore.step_finish {t t' : TextStore} {b : BatchRun} {rc : Int} {now later : Time}
    {outcome : SaveOutcome}
    (h : t.step timeRepr floatRepr limit depth (.finish b rc now later outcome) = some t') :
    rc.natAbs ≤ 255 ∧
      t'.history = (t.history ++ [(b.entry rc now later).value timeRepr]).rtake limit ∧
      t'.file = if outcome = .succeeds then some (Json.dumps (.list t'.history)) else t.file := by
  simp only [TextStore.step, b.batchEntry_eq, popText_eq] at h
  split at h
  · rename_i hrc
    cases h
    refine ⟨hrc, ?_, ?_⟩
    · cases outcome <;> rfl
    · cases outcome <;> rfl
  · cases h

/-- A restart loads the file and leaves it as it is. -/
theorem TextStore.step_restart {t t' : TextStore}
    (h : t.step timeRepr floatRepr limit depth .restart = some t') :
    loadText floatRepr limit depth t.file = .ok t'.history ∧ t'.file = t.file := by
  simp only [TextStore.step] at h
  split at h
  · rename_i history hload
    cases h
    exact ⟨hload, rfl⟩
  · cases h

end ops

/-! ## Memory and disk along a run -/

section run

variable {timeRepr : Time → PyStr} {floatRepr : PyStr → PyStr} {limit depth : Nat}
  {t₀ t t' : TextStore} {ops : List HistoryOp}

/-- The values of the entries kept. -/
def keptValues (timeRepr : Time → PyStr) (ops : List HistoryOp) : List PyValue :=
  (kept ops).map (·.value timeRepr)

/-- After `ops` from `t₀`: memory holds the last values kept, the file is read as the last of
those that a restart would keep, and all of them can be printed. -/
structure TextInv (timeRepr : Time → PyStr) (floatRepr : PyStr → PyStr) (limit depth : Nat)
    (t₀ : TextStore) (ops : List HistoryOp) (t : TextStore) : Prop where
  memory : t.history = (t₀.history ++ keptValues timeRepr ops).rtake limit
  disk : loadText floatRepr limit (depth + 4) t.file =
    .ok ((t₀.history ++ keptValues timeRepr (ops ++ [.restart])).rtake limit)
  prints : ∀ v ∈ t.history, Json.Prints floatRepr (depth + 3) v

theorem TextInv.start (hfloats : Floats timeRepr floatRepr) (hlimit : 1 ≤ limit)
    (h : t.Init floatRepr limit (depth + 4)) : TextInv timeRepr floatRepr limit depth t [] t where
  memory := by
    show t.history = (t.history ++ []).rtake limit
    rw [List.append_nil, rtake_values_of_le (loadText_ok hfloats hlimit h.loaded).1]
  disk := by
    show _ = Except.ok ((t.history ++ []).rtake limit)
    rw [List.append_nil, rtake_values_of_le (loadText_ok hfloats hlimit h.loaded).1]
    exact h.loaded
  prints := (loadText_ok hfloats hlimit h.loaded).2

/-- A finished batch, saved or not, goes behind what was kept. -/
theorem TextInv.finish (hfloats : Floats timeRepr floatRepr) (hlimit : 1 ≤ limit)
    (h : TextInv timeRepr floatRepr limit depth t₀ ops t) {b : BatchRun} {rc : Int}
    {now later : Time} {outcome : SaveOutcome}
    (hstep : t.step timeRepr floatRepr limit (depth + 4) (.finish b rc now later outcome) =
      some t') :
    TextInv timeRepr floatRepr limit depth t₀ (ops ++ [.finish b rc now later outcome]) t' := by
  obtain ⟨hrc, hhistory, hfile⟩ := TextStore.step_finish hstep
  have htail : t'.history = (t₀.history ++
      (keptValues timeRepr ops ++ [(b.entry rc now later).value timeRepr])).rtake limit := by
    rw [hhistory, h.memory, Ring.rtake_rtake_append, List.append_assoc]
  have hshort : (b.entry rc now later).Short := by
    refine short_batchEntry (b.batchEntry_eq rc now later) ?_
    intro rc' hrc'
    cases hrc'
    exact hrc
  have hprints : ∀ v ∈ t'.history, Json.Prints floatRepr (depth + 3) v := by
    intro v hv
    rw [hhistory] at hv
    rcases List.mem_append.mp (List.mem_of_mem_drop hv) with hv | hv
    · exact h.prints v hv
    · rw [List.mem_singleton.mp hv]
      exact BatchEntry.prints hfloats hshort depth
  have hlen : t'.history.length ≤ limit := by
    rw [hhistory]
    exact length_rtake_values_le _ _
  refine ⟨?_, ?_, hprints⟩
  · rw [htail, keptValues, keptValues, kept_append_finish, List.map_append]
    rfl
  · rw [hfile, List.append_assoc, List.singleton_append]
    by_cases hsaved : outcome = .succeeds
    · rw [if_pos hsaved, loadText_dumps hlimit hprints hlen, hsaved, keptValues,
        kept_append_saved_restart, List.map_append, htail]
      rfl
    · rw [if_neg hsaved, keptValues, kept_append_unsaved_restart hsaved]
      exact h.disk

/-- A restart leaves what the file holds. -/
theorem TextInv.restart (hfloats : Floats timeRepr floatRepr) (hlimit : 1 ≤ limit)
    (h : TextInv timeRepr floatRepr limit depth t₀ ops t)
    (hstep : t.step timeRepr floatRepr limit (depth + 4) .restart = some t') :
    TextInv timeRepr floatRepr limit depth t₀ (ops ++ [.restart]) t' := by
  obtain ⟨hload, hfile⟩ := TextStore.step_restart hstep
  have hhistory := hload.symm.trans h.disk
  refine ⟨Except.ok.inj hhistory, ?_, (loadText_ok hfloats hlimit hload).2⟩
  rw [hfile, List.append_assoc, List.singleton_append, keptValues, kept_append_restart_restart]
  exact h.disk

theorem textInv_of_run (hfloats : Floats timeRepr floatRepr) {setting : Int}
    (hinit : (TextStore.system timeRepr floatRepr setting (depth + 4)).init t₀)
    (hrun : (TextStore.system timeRepr floatRepr setting (depth + 4)).Run t₀ ops t) :
    TextInv timeRepr floatRepr (historyMax setting) depth t₀ ops t := by
  have hlimit := one_le_historyMax setting
  refine TSys.Run.induct
    (P := fun ops t => TextInv timeRepr floatRepr (historyMax setting) depth t₀ ops t)
    (TextInv.start hfloats hlimit hinit) ?_ hrun
  intro ops t op t' _ h hstep
  cases op with
  | finish b rc now later outcome => exact h.finish hfloats hlimit hstep
  | restart => exact h.restart hfloats hlimit hstep

end run

/-! ## Durability of the text -/

/-- What holds of the texts that `ops` lead to from `t₀`. -/
structure DurableText (timeRepr : Time → PyStr) (floatRepr : PyStr → PyStr) (setting : Int)
    (depth : Nat) (t₀ : TextStore) (ops : List HistoryOp) (t : TextStore) : Prop where
  /-- `HISTORY` is the last of what was found and of the entries that a restart did not lose -/
  entries : t.history = (t₀.history ++ keptValues timeRepr ops).rtake (historyMax setting)
  /-- the dashboard can be restarted, and then it has what a restart does not lose -/
  restarts : ∃ t', t.step timeRepr floatRepr (historyMax setting) depth .restart = some t' ∧
    t'.history =
      (t₀.history ++ keptValues timeRepr (ops ++ [.restart])).rtake (historyMax setting)
  /-- the file has the text that was found, as long as no save succeeds … -/
  unsaved : (∀ op ∈ ops, op.saves = false) → t.file = t₀.file
  /-- … and then that of `HISTORY` at the last save that did, which is read back -/
  saved : ∀ before op after, ops = before ++ op :: after → op.saves = true →
    (∀ op ∈ after, op.saves = false) →
    ∃ t₁, (TextStore.system timeRepr floatRepr setting depth).Run t₀ (before ++ [op]) t₁ ∧
      t.file = some (Json.dumps (.list t₁.history)) ∧
      loadText floatRepr (historyMax setting) depth t.file = .ok t₁.history
  /-- no part of a printed history is taken for a history -/
  untorn : ∀ s, s <+: Json.dumps (.list t.history) → s ≠ Json.dumps (.list t.history) →
    loadText floatRepr (historyMax setting) depth (some s) = .ok []
  /-- where it started out with entries, it refines the store of them -/
  refines : ∀ s₀ s, (historySystem setting).init s₀ → (historySystem setting).Run s₀ ops s →
    t₀.history = s₀.history.map (·.value timeRepr) → t.history = s.history.map (·.value timeRepr)

section durable

variable {timeRepr : Time → PyStr} {floatRepr : PyStr → PyStr} {setting : Int} {depth : Nat}
  {t₀ t t' : TextStore} {ops : List HistoryOp}

theorem TextStore.file_of_step {op : HistoryOp}
    (h : (TextStore.system timeRepr floatRepr setting depth).step t op t') :
    t'.file = if op.saves then some (Json.dumps (.list t'.history)) else t.file := by
  cases op with
  | restart => exact (TextStore.step_restart h).2
  | finish b rc now later outcome =>
      rw [(TextStore.step_finish h).2.2]
      show _ = if decide (outcome = .succeeds) then _ else _
      simp only [decide_eq_true_eq]

/-- Without a save that succeeds, the file stays as it is. -/
theorem TextStore.file_of_unsaved
    (h : (TextStore.system timeRepr floatRepr setting depth).Run t ops t')
    (hops : ∀ op ∈ ops, op.saves = false) : t'.file = t.file := by
  induction h with
  | nil => rfl
  | @cons t op m ops t' hstep _ ih =>
      rw [ih fun o ho => hops o (List.mem_cons_of_mem op ho), TextStore.file_of_step hstep,
        hops op List.mem_cons_self]
      rfl

/-- **The text of the history is durable**, whatever text without a lone surrogate a dashboard
found, through saves that fail at any point and restarts at any point. -/
theorem history_text_durable (hfloats : Floats timeRepr floatRepr)
    (hinit : (TextStore.system timeRepr floatRepr setting (depth + 4)).init t₀)
    (hrun : (TextStore.system timeRepr floatRepr setting (depth + 4)).Run t₀ ops t) :
    DurableText timeRepr floatRepr setting (depth + 4) t₀ ops t := by
  have hlimit := one_le_historyMax setting
  have h := textInv_of_run hfloats hinit hrun
  refine ⟨h.memory, ?_, TextStore.file_of_unsaved hrun, ?_, ?_, ?_⟩
  · refine ⟨{ t with history := _ }, ?_, rfl⟩
    simp only [TextStore.step, h.disk]
    rfl
  · intro before op after hops hsaves hafter
    rw [hops, ← List.singleton_append, ← List.append_assoc] at hrun
    obtain ⟨t₁, hbefore, hrest⟩ := hrun.split
    obtain ⟨t₂, -, hlast⟩ := hbefore.split
    have hfile : t.file = some (Json.dumps (.list t₁.history)) := by
      rw [TextStore.file_of_unsaved hrest hafter,
        TextStore.file_of_step (TSys.run_singleton.mp hlast), if_pos hsaves]
    have h₁ := textInv_of_run hfloats hinit hbefore
    refine ⟨t₁, hbefore, hfile, ?_⟩
    rw [hfile]
    refine loadText_dumps hlimit h₁.prints ?_
    rw [h₁.memory]
    exact length_rtake_values_le _ _
  · intro s hs hne
    exact loadText_cut h.prints hs hne
  · intro s₀ s hinit₀ hrun₀ hstart
    rw [h.memory, (historyInv_of_run hinit₀ hrun₀).memory, hstart, keptValues, ← List.map_append,
      List.rtake, List.rtake, List.map_drop, List.length_map]

end durable

/-- Times that print as `0.0`, or as `1.0` for one second. -/
def secondRepr (t : Time) : PyStr := if t = 1 then "1.0".toList else "0.0".toList

/-- `repr(float(text))`, of the same times. -/
def secondText (text : PyStr) : PyStr := if text = "1.0".toList then text else "0.0".toList

/-- A dashboard finds a list that it has not written; a batch is saved behind it, a second one
is not, and a restart loses that one. -/
theorem history_text_durable_foreign : ∃ t₀ t,
    t₀.file = some "[null, 7]".toList ∧
      DurableText secondRepr secondText 30 4 t₀
        [.finish (silentBatch "a") 0 1 1 .succeeds,
          .finish (silentBatch "b") 0 1 1 (.failsAtWrite 7), .restart] t ∧
      t.history = [.none, .int 7, ((silentBatch "a").entry 0 1 1).value secondRepr] := by
  have hfloats : Floats secondRepr secondText := by
    refine ⟨⟨?_⟩, ?_⟩
    · intro text
      unfold secondText
      split
      · rename_i htext
        rw [htext]
        rfl
      · rfl
    · intro t
      unfold secondRepr
      split <;> rfl
  let t₀ : TextStore := ⟨[.none, .int 7], some "[null, 7]".toList, none⟩
  have hinit : (TextStore.system secondRepr secondText 30 4).init t₀ := by
    refine ⟨rfl, ?_⟩
    intro text htext
    cases htext
    decide
  have hrun : (TextStore.system secondRepr secondText 30 4).Run t₀
      [.finish (silentBatch "a") 0 1 1 .succeeds,
        .finish (silentBatch "b") 0 1 1 (.failsAtWrite 7)] _ :=
    .cons rfl (.cons rfl .nil)
  obtain ⟨t, hstep, hhistory⟩ := (history_text_durable hfloats hinit hrun).restarts
  refine ⟨t₀, t, rfl, history_text_durable hfloats hinit
    (hrun.append (TSys.run_singleton.mpr hstep)), ?_⟩
  rw [hhistory]
  rfl

end SrxProbe.Dashboard
