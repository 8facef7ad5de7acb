import Mathlib.Data.List.Induction

/-!
# Labelled transition systems

States, labelled steps, and the invariant rules every system of the
development is reasoned about with. All nondeterminism (a scheduler's choice,
a clock reading, the outcome of a system call) is carried by the label, so a
system whose step is a partial function (`TSys.ofFn`) can be run on a concrete
list of labels.
-/

namespace SrxProbe.Lib

universe u v

/-- A labelled transition system over states `σ` and labels `α`. -/
structure TSys (σ : Type u) (α : Type v) where
  init : σ → Prop
  step : σ → α → σ → Prop

namespace TSys

variable {σ : Type u} {α : Type v}

/-- The system of a partial step function. -/
def ofFn (init : σ → Prop) (f : σ → α → Option σ) : TSys σ α where
  init := init
  step s a s' := f s a = some s'

/-- The same system, kept to the steps `ok` allows. -/
def restrict (T : TSys σ α) (ok : σ → α → Prop) : TSys σ α where
  init := T.init
  step s a s' := ok s a ∧ T.step s a s'

/-- States reachable from an initial state. -/
inductive Reachable (T : TSys σ α) : σ → Prop
  | init {s} : T.init s → Reachable T s
  | step {s a s'} : Reachable T s → T.step s a s' → Reachable T s'

/-- `T.Run s as s'`: the labels `as`, taken in order, lead from `s` to `s'`. -/
inductive Run (T : TSys σ α) : σ → List α → σ → Prop
  | nil {s} : Run T s [] s
  | cons {s a s' as s''} : T.step s a s' → Run T s' as s'' → Run T s (a :: as) s''

/-- `P` holds in every reachable state. -/
def Invariant (T : TSys σ α) (P : σ → Prop) : Prop := ∀ s, T.Reachable s → P s

/-- `P` holds initially and every step preserves it. -/
structure Inductive (T : TSys σ α) (P : σ → Prop) : Prop where
  init : ∀ s, T.init s → P s
  step : ∀ s a s', P s → T.step s a s' → P s'

theorem Inductive.invariant {T : TSys σ α} {P : σ → Prop} (h : T.Inductive P) :
    T.Invariant P := by
  intro s hs
  induction hs with
  | init hinit => exact h.init _ hinit
  | step _ hstep ih => exact h.step _ _ _ ih hstep

/-- A known invariant may be used while proving the next one inductive. -/
theorem Invariant.strengthen {T : TSys σ α} {P Q : σ → Prop} (hP : T.Invariant P)
    (hinit : ∀ s, T.init s → Q s)
    (hstep : ∀ s a s', P s → P s' → Q s → T.step s a s' → Q s') : T.Invariant Q := by
  intro s hs
  induction hs with
  | init h => exact hinit _ h
  | step hr h ih => exact hstep _ _ _ (hP _ hr) (hP _ (hr.step h)) ih h

/-- A reachable state of the restricted system is reachable in the full one. -/
theorem Reachable.of_restrict {T : TSys σ α} {ok : σ → α → Prop} {s : σ}
    (h : (T.restrict ok).Reachable s) : T.Reachable s := by
  induction h with
  | init hinit => exact .init hinit
  | step _ hstep ih => exact ih.step hstep.2

theorem Invariant.restrict {T : TSys σ α} {P : σ → Prop} (h : T.Invariant P)
    (ok : σ → α → Prop) : (T.restrict ok).Invariant P :=
  fun s hs => h s hs.of_restrict

theorem Run.reachable {T : TSys σ α} {s s' : σ} {as : List α} (hs : T.Reachable s)
    (h : T.Run s as s') : T.Reachable s' := by
  induction h with
  | nil => exact hs
  | cons hstep _ ih => exact ih (hs.step hstep)

theorem Run.append {T : TSys σ α} {s s' s'' : σ} {as bs : List α}
    (h : T.Run s as s') (h' : T.Run s' bs s'') : T.Run s (as ++ bs) s'' := by
  induction h with
  | nil => exact h'
  | cons hstep _ ih => exact .cons hstep (ih h')

/-- A run along `as ++ bs` passes through a state between the two. -/
theorem Run.split {T : TSys σ α} {s s'' : σ} {as bs : List α}
    (h : T.Run s (as ++ bs) s'') : ∃ s', T.Run s as s' ∧ T.Run s' bs s'' := by
  induction as generalizing s with
  | nil => exact ⟨s, .nil, h⟩
  | cons a as ih =>
      cases h with
      | cons hstep hrest =>
          obtain ⟨m, hm, hb⟩ := ih hrest
          exact ⟨m, .cons hstep hm, hb⟩

theorem run_singleton {T : TSys σ α} {s s' : σ} {a : α} :
    T.Run s [a] s' ↔ T.step s a s' := by
  constructor
  · intro h
    cases h with
    | cons hstep hnil =>
        cases hnil
        exact hstep
  · exact fun h => .cons h .nil

/-- Run induction from a state `s₀`: `P` relates the labels taken so far with
the state they lead to. -/
theorem Run.induct {T : TSys σ α} {s₀ : σ} {P : List α → σ → Prop} (hnil : P [] s₀)
    (hstep : ∀ as s a s', T.Run s₀ as s → P as s → T.step s a s' → P (as ++ [a]) s')
    {as : List α} {s : σ} (h : T.Run s₀ as s) : P as s := by
  induction as using List.reverseRecOn generalizing s with
  | nil =>
      cases h
      exact hnil
  | append_singleton as a ih =>
      obtain ⟨m, hm, hlast⟩ := h.split
      exact hstep as m a s hm (ih hm) (run_singleton.mp hlast)

/-- What the labels of a run add up to. -/
def total (gain : α → Nat) : List α → Nat
  | [] => 0
  | a :: as => gain a + total gain as

/-- Where each of somebody's own steps lowers a bound, but for what the step adds to it, a run
has no more of them than the bound allowed at first and the run has added. -/
theorem Run.count_own {T : TSys σ α} {own : α → Bool} {left : σ → Nat} {gain : α → Nat}
    (hstep : ∀ s a s', T.Reachable s → T.step s a s' →
      (if own a then 1 else 0) + left s' ≤ left s + gain a)
    {s s' : σ} {as : List α} (hs : T.Reachable s) (h : T.Run s as s') :
    as.countP own + left s' ≤ left s + total gain as := by
  induction h with
  | nil => simp
  | @cons s a m as s' hfirst _ ih =>
      have hown := hstep s a m hs hfirst
      have hrest := ih (hs.step hfirst)
      rw [List.countP_cons, total]
      omega

/-! ## Running a step function -/

/-- Run a partial step function along a list of labels. -/
def runFn (f : σ → α → Option σ) : σ → List α → Option σ
  | s, [] => some s
  | s, a :: as =>
      match f s a with
      | some s' => runFn f s' as
      | none => none

theorem run_of_runFn {init : σ → Prop} {f : σ → α → Option σ} {as : List α} {s s' : σ}
    (h : runFn f s as = some s') : (ofFn init f).Run s as s' := by
  induction as generalizing s with
  | nil =>
      simp only [runFn, Option.some.injEq] at h
      exact h ▸ .nil
  | cons a as ih =>
      cases hf : f s a with
      | none => simp [runFn, hf] at h
      | some m =>
          simp only [runFn, hf] at h
          exact .cons hf (ih h)

/-- A state found by running the step function is reachable. -/
theorem exists_reachable_of_runFn {init : σ → Prop} {f : σ → α → Option σ} {s : σ}
    (as : List α) (p : σ → Bool) (hs : init s) (h : (runFn f s as).any p = true) :
    ∃ s', (ofFn init f).Reachable s' ∧ p s' = true := by
  obtain ⟨s', hrun, hp⟩ := (Option.any_eq_true _ _).mp h
  exact ⟨s', (run_of_runFn hrun).reachable (.init hs), hp⟩

/-- A step function kept to the steps `ok` allows. -/
def guarded (ok : σ → α → Bool) (f : σ → α → Option σ) (s : σ) (a : α) : Option σ :=
  if ok s a then f s a else none

theorem Reachable.of_guarded {init : σ → Prop} {ok : σ → α → Bool} {f : σ → α → Option σ}
    {s : σ} (h : (ofFn init (guarded ok f)).Reachable s) :
    ((ofFn init f).restrict (fun s a => ok s a = true)).Reachable s := by
  induction h with
  | init hinit => exact .init hinit
  | @step s a s' _ hstep ih =>
      have hguard : guarded ok f s a = some s' := hstep
      unfold guarded at hguard
      split at hguard
      · rename_i hok
        exact ih.step ⟨hok, hguard⟩
      · cases hguard

end TSys

end SrxProbe.Lib
