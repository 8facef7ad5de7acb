import SrxProbe.Dashboard.RunInv

/-!
# Run safety

Any list of operations on a new run executes without an exception leaving the
run's own code, and the state it ends in is bounded, ordered, and latched: this
is the whole contract of `Run` except for what subscribers are sent.
-/

namespace SrxProbe.Dashboard

open SrxProbe.Lib

/-- The lines given to `emit` before the first `finish`. -/
def emitted : List Op → List PyStr
  | [] => []
  | .emit line :: ops => line :: emitted ops
  | .finish .. :: _ => []
  | _ :: ops => emitted ops

namespace Run

/-- The output, the events and the latch of two states of a run agree. -/
structure Frozen (r r' : Run) : Prop where
  lines : r'.lines = r.lines
  events : r'.events = r.events
  sequence : r'.sequence = r.sequence
  terminal : r'.terminal = r.terminal
  returncode : r'.returncode = r.returncode
  ended : r'.ended = r.ended
  published : r'.published = r.published

theorem Frozen.refl (r : Run) : Frozen r r := ⟨rfl, rfl, rfl, rfl, rfl, rfl, rfl⟩

theorem Frozen.trans {r r' r'' : Run} (h : Frozen r r') (h' : Frozen r' r'') :
    Frozen r r'' :=
  ⟨h'.lines.trans h.lines, h'.events.trans h.events, h'.sequence.trans h.sequence,
    h'.terminal.trans h.terminal, h'.returncode.trans h.returncode, h'.ended.trans h.ended,
    h'.published.trans h.published⟩

/-- The operations of a subscriber freeze the run at any time; `emit` and
`finish` do once it has ended. -/
theorem Effect.frozen {r r' : Run} {op : Op} (h : Effect r op r')
    (hop : r.terminal.isSome = true ∨
      (∀ line, op ≠ .emit line) ∧ ∀ rc now recorded, op ≠ .finish rc now recorded) :
    Frozen r r' := by
  cases h with
  | late _ => exact .refl r
  | emit line hterm =>
      rcases hop with hend | ⟨hne, -⟩
      · exact absurd (hterm.symm.trans hend) Bool.false_ne_true
      · exact absurd rfl (hne line)
  | finish rc now recorded hterm =>
      rcases hop with hend | ⟨-, hne⟩
      · exact absurd (hterm.symm.trans hend) Bool.false_ne_true
      · exact absurd rfl (hne rc now recorded)
  | refused _ => exact .refl r
  | subscribe _ _ => exact ⟨rfl, rfl, rfl, rfl, rfl, rfl, rfl⟩
  | unsubscribe _ => exact ⟨rfl, rfl, rfl, rfl, rfl, rfl, rfl⟩
  | empty _ => exact .refl r
  | get _ _ _ _ _ => exact ⟨rfl, rfl, rfl, rfl, rfl, rfl, rfl⟩

/-- Nothing changes the output, the events or the latch of an ended run. -/
theorem execAll_frozen {r r' : Run} {ops : List Op} (h : r.Inv)
    (hterm : r.terminal.isSome = true) (hops : r.execAll ops = .ok r') : Frozen r r' := by
  have hrun := execAll_iff_run.mp hops
  clear hops
  induction hrun with
  | nil => exact .refl _
  | cons hstep _ ih =>
      have hfrozen := (exec_effect h.subs.nodup hstep).frozen (.inl hterm)
      exact hfrozen.trans (ih (h.exec_ok hstep) (hfrozen.terminal ▸ hterm))

/-- The `log` events published by `ops` carry the clipped lines they emit. -/
theorem execAll_lines {r r' : Run} {ops : List Op} (h : r.Inv)
    (hterm : r.terminal.isSome = false) (hops : r.execAll ops = .ok r') :
    r'.published.filterMap Event.line? =
      r.published.filterMap Event.line? ++ (emitted ops).map (List.take maxLineChars) := by
  have hrun := execAll_iff_run.mp hops
  clear hops
  induction hrun with
  | nil => simp [emitted]
  | @cons r op m ops r' hstep hrest ih =>
      have hm := h.exec_ok hstep
      have heffect := exec_effect h.subs.nodup hstep
      -- an operation of a subscriber adds nothing on either side
      have hsubscriber : Frozen r m → emitted (op :: ops) = emitted ops →
          r'.published.filterMap Event.line? = r.published.filterMap Event.line? ++
            (emitted (op :: ops)).map (List.take maxLineChars) := by
        intro hfrozen hemitted
        rw [ih hm (hfrozen.terminal ▸ hterm), hfrozen.published, hemitted]
      cases heffect with
      | late hend => exact absurd (hterm.symm.trans hend) Bool.false_ne_true
      | emit line _ =>
          have hlog : (r.afterEmit line).published.filterMap Event.line? =
              r.published.filterMap Event.line? ++ [line.take maxLineChars] := by
            simp [afterEmit, afterPublish, Event.line?]
          rw [ih hm hterm, hlog, emitted, List.map_cons, List.append_assoc]
          rfl
      | finish rc now recorded _ =>
          have hfrozen := execAll_frozen hm rfl (execAll_iff_run.mpr hrest)
          rw [hfrozen.published]
          simp [afterFinish, afterPublish, Event.line?, emitted]
      | refused lastId => exact hsubscriber (.refl r) rfl
      | subscribe lastId hlt => exact hsubscriber ⟨rfl, rfl, rfl, rfl, rfl, rfl, rfl⟩ rfl
      | unsubscribe q => exact hsubscriber ⟨rfl, rfl, rfl, rfl, rfl, rfl, rfl⟩ rfl
      | empty q => exact hsubscriber (.refl r) rfl
      | get q item queue hitems hhist =>
          exact hsubscriber ⟨rfl, rfl, rfl, rfl, rfl, rfl, rfl⟩ rfl

/-- The log holds at most one `end` event, and exactly when `terminal` is set. -/
theorem Inv.filter_isEnd {r : Run} (h : r.Inv) :
    r.published.filter Event.isEnd = r.terminal.toList := by
  rcases h.latch with hactive | ⟨e, hended⟩
  · rw [hactive.terminal, Option.toList_none, List.filter_eq_nil_iff]
    intro e he
    rw [hactive.unended e he]
    exact Bool.false_ne_true
  · obtain ⟨past, hpub, hpast⟩ := hended.last
    have hnil : past.filter Event.isEnd = [] := by
      rw [List.filter_eq_nil_iff]
      intro e' he'
      rw [hpast e' he']
      exact Bool.false_ne_true
    rw [hended.terminal, hpub, List.filter_append, hnil]
    simp [hended.isEnd]

/-- What holds of a run after the operations `ops` on a new one. -/
structure Safe (ops : List Op) (r : Run) : Prop where
  /-- the retained events have consecutive ids ending at `sequence` … -/
  consecutive : r.events.items.map Event.id =
    List.range' (r.sequence + 1 - r.events.items.length) r.events.items.length
  /-- … and there are as many as fit -/
  retained : r.events.items.length = min r.sequence maxLines
  /-- `lines` is the tail of the emitted lines, each clipped -/
  lines : r.lines.items = ((emitted ops).map (List.take maxLineChars)).rtake maxLines
  lineLength : ∀ line ∈ r.lines.items, line.length ≤ maxLineChars
  subscribers : r.subscribers.length ≤ maxSubscribers
  queues : ∀ q ∈ r.subscribers, (r.queues q).items.length ≤ queueSize
  /-- `_publish` does not raise -/
  publishes : ∀ data, ∃ published, r.publish data = .ok published
  /-- `terminal`, `ended` and `returncode` are set together -/
  together : r.terminal.isSome = r.ended.isSome ∧ r.ended.isSome = r.returncode.isSome
  /-- an `end` event was published at most once, exactly when `terminal` is set -/
  oneEnd : r.published.filter Event.isEnd = r.terminal.toList
  /-- it has the highest id, and is the last event retained -/
  endLast : ∀ e, r.terminal = some e →
    e.id = r.sequence ∧ (∀ e' ∈ r.published, e'.id ≤ e.id) ∧ r.events.items.getLast? = some e
  /-- no later operation changes what an ended run holds -/
  latched : ∀ later r', r.terminal.isSome = true → r.execAll later = .ok r' → Frozen r r'

theorem LogInv.id_le {r : Run} (h : r.LogInv) {e : Event} (he : e ∈ r.published) :
    e.id ≤ r.sequence := by
  obtain ⟨i, hi⟩ := List.mem_iff_getElem?.mp he
  have hlt : i < r.published.length := (List.getElem?_eq_some_iff.mp hi).1
  rw [h.id_getElem? hi, h.sequence]
  omega

theorem Inv.safe {r : Run} {ops : List Op} (h : r.Inv)
    (hlines : r.published.filterMap Event.line? =
      (emitted ops).map (List.take maxLineChars)) : Safe ops r where
  consecutive := h.log.retained_ids
  retained := by rw [h.log.retained.length, h.log.sequence]
  lines := by
    have htail := h.output.tail
    rw [hlines] at htail
    exact htail
  lineLength := fun line hline => h.output.clipped line (h.output.tail.suffix.subset hline)
  subscribers := h.subs.limit
  queues := fun q _ => (r.queues q).bounded
  publishes := fun data => ⟨_, publish_eq r data h.subs.nodup⟩
  together := by
    rcases h.latch with hactive | ⟨e, hended⟩
    · rw [hactive.terminal, hactive.ended, hactive.returncode]
      exact ⟨rfl, rfl⟩
    · rw [hended.terminal, hended.ended, hended.returncode]
      exact ⟨rfl, rfl⟩
  oneEnd := h.filter_isEnd
  endLast := by
    intro e hterm
    obtain ⟨hlast, hid⟩ := (h.latch.ended hterm).retained h.log
    exact ⟨hid, fun e' he' => hid ▸ h.log.id_le he', hlast⟩
  latched := fun _ _ hterm hlater => execAll_frozen h hterm hlater

/-- **Run safety.** Whatever is done to a run in whatever order, with any outcome
of the history write inside `finish`, no exception escapes and the state reached
is `Safe`. -/
theorem run_safe (id cmdline workload : PyStr) (now : Time) (ops : List Op) :
    ∃ r, (Run.new id cmdline workload now).execAll ops = .ok r ∧ Safe ops r := by
  have hnew := Inv.new id cmdline workload now
  obtain ⟨r, hr, hinv⟩ := hnew.execAll ops
  refine ⟨r, hr, hinv.safe ?_⟩
  rw [execAll_lines hnew rfl hr]
  rfl

end Run

end SrxProbe.Dashboard
