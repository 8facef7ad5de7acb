import Mathlib.Data.List.Infix

/-!
# Bounded first-in first-out queues

A queue with a maximal size and non-blocking operations: putting into a full
queue and taking from an empty one fail. Beside its contents a queue carries its
history, everything ever put into it; the contents are always what is left at
the end of the history.
-/

namespace SrxProbe.Lib

universe u

/-- A queue of at most `size` items, oldest first. `history` is a history
variable: no operation reads it. -/
structure Fifo (α : Type u) (size : Nat) where
  items : List α
  history : List α
  bounded : items.length ≤ size
  suffix : items <:+ history

namespace Fifo

variable {α : Type u} {size : Nat}

def empty : Fifo α size := ⟨[], [], Nat.zero_le size, List.suffix_refl []⟩

/-- `put_nowait`: `none` when the queue is full. -/
def putNowait (q : Fifo α size) (x : α) : Option (Fifo α size) :=
  if h : q.items.length < size then
    some { items := q.items ++ [x]
           history := q.history ++ [x]
           bounded := by rw [List.length_append]; exact h
           suffix := (List.suffix_append_inj_of_length_eq rfl).mpr ⟨q.suffix, rfl⟩ }
  else none

/-- `get_nowait`: the oldest item and the queue without it; `none` when empty. -/
def getNowait : Fifo α size → Option (α × Fifo α size)
  | ⟨[], _, _, _⟩ => none
  | ⟨x :: rest, history, bounded, suffix⟩ =>
      some (x, ⟨rest, history, Nat.le_of_succ_le bounded,
        (List.suffix_cons x rest).trans suffix⟩)

/-- At most `n` turns of `while True: get_nowait()`, stopping on an empty queue. -/
def getAll : Nat → Fifo α size → Fifo α size
  | 0, q => q
  | n + 1, q =>
      match q.getNowait with
      | none => q
      | some (_, q') => getAll n q'

/-- The whole loop: the last of its `length + 1` turns finds the queue empty. -/
def drain (q : Fifo α size) : Fifo α size := q.getAll (q.items.length + 1)

@[simp] theorem empty_items : (empty : Fifo α size).items = [] := rfl

@[simp] theorem empty_history : (empty : Fifo α size).history = [] := rfl

/-- What a successful `put_nowait` does. -/
theorem putNowait_some {q q' : Fifo α size} {x : α} (h : q.putNowait x = some q') :
    q.items.length < size ∧ q'.items = q.items ++ [x] ∧ q'.history = q.history ++ [x] := by
  unfold putNowait at h
  split at h
  · rename_i hlt
    simp only [Option.some.injEq] at h
    subst h
    exact ⟨hlt, rfl, rfl⟩
  · cases h

/-- `put_nowait` fails exactly on a full queue. -/
theorem putNowait_none {q : Fifo α size} {x : α} :
    q.putNowait x = none ↔ q.items.length = size := by
  have hb := q.bounded
  unfold putNowait
  split <;> simp <;> omega

theorem putNowait_of_lt {q : Fifo α size} (x : α) (h : q.items.length < size) :
    ∃ q', q.putNowait x = some q' ∧ q'.items = q.items ++ [x] ∧
      q'.history = q.history ++ [x] := by
  cases hq : q.putNowait x with
  | none => exact absurd (putNowait_none.mp hq) (Nat.ne_of_lt h)
  | some q' => exact ⟨q', rfl, (putNowait_some hq).2⟩

/-- What a successful `get_nowait` does. -/
theorem getNowait_some {q q' : Fifo α size} {x : α} (h : q.getNowait = some (x, q')) :
    q.items = x :: q'.items ∧ q'.history = q.history := by
  obtain ⟨items, history, bounded, suffix⟩ := q
  cases items with
  | nil => cases h
  | cons y rest =>
      cases h
      exact ⟨rfl, rfl⟩

/-- `get_nowait` fails exactly on an empty queue. -/
theorem getNowait_none {q : Fifo α size} : q.getNowait = none ↔ q.items = [] := by
  obtain ⟨items, history, bounded, suffix⟩ := q
  cases items <;> simp [getNowait]

theorem getNowait_of_cons {q : Fifo α size} {x : α} {rest : List α} (h : q.items = x :: rest) :
    ∃ q', q.getNowait = some (x, q') ∧ q'.items = rest := by
  obtain ⟨items, history, bounded, suffix⟩ := q
  cases h
  exact ⟨_, rfl, rfl⟩

theorem drain_of_empty {q : Fifo α size} (h : q.getNowait = none) : q.drain = q := by
  simp only [drain, getAll, h]

/-- Draining goes on where one `get_nowait` leaves off. -/
theorem drain_of_getNowait {q q' : Fifo α size} {x : α} (h : q.getNowait = some (x, q')) :
    q.drain = q'.drain := by
  have hlen : q.items.length = q'.items.length + 1 := by
    rw [(getNowait_some h).1, List.length_cons]
  rw [drain, drain, getAll, h, hlen]

private theorem getAll_spec (n : Nat) (q : Fifo α size) (h : q.items.length < n) :
    (q.getAll n).items = [] ∧ (q.getAll n).history = q.history := by
  induction n generalizing q with
  | zero => omega
  | succ n ih =>
      cases hq : q.getNowait with
      | none => simpa [getAll, hq] using getNowait_none.mp hq
      | some p =>
          obtain ⟨x, q'⟩ := p
          obtain ⟨hitems, hhist⟩ := getNowait_some hq
          simp only [getAll, hq, ← hhist]
          refine ih q' ?_
          rw [hitems, List.length_cons] at h
          omega

/-- Draining empties the queue and puts nothing. -/
@[simp] theorem drain_items (q : Fifo α size) : q.drain.items = [] :=
  (getAll_spec _ q (Nat.lt_succ_self _)).1

@[simp] theorem drain_history (q : Fifo α size) : q.drain.history = q.history :=
  (getAll_spec _ q (Nat.lt_succ_self _)).2

end Fifo

end SrxProbe.Lib
