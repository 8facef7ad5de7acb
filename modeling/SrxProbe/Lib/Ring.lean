import Mathlib.Data.List.DropRight

/-!
# Bounded rings

A double-ended queue with a maximal length, used as a ring: appending to a full
one discards the oldest item. The bound is part of the type, and `Holds` relates
a ring to the log of everything ever appended to it.
-/

namespace SrxProbe.Lib

universe u

/-- A ring of at most `cap` items, oldest first. -/
structure Ring (α : Type u) (cap : Nat) where
  items : List α
  bounded : items.length ≤ cap

namespace Ring

variable {α : Type u} {cap : Nat}

def empty : Ring α cap := ⟨[], Nat.zero_le cap⟩

/-- Append on the right; a full ring drops from the left. -/
def push (r : Ring α cap) (x : α) : Ring α cap where
  items := (r.items ++ [x]).rtake cap
  bounded := by simp only [List.rtake, List.length_drop]; omega

@[simp] theorem empty_items : (empty : Ring α cap).items = [] := rfl

@[simp] theorem push_items (r : Ring α cap) (x : α) :
    (r.push x).items = (r.items ++ [x]).rtake cap := rfl

/-- Below capacity, nothing is dropped. -/
theorem push_items_of_lt (r : Ring α cap) (x : α) (h : r.items.length < cap) :
    (r.push x).items = r.items ++ [x] := by
  simp [List.rtake, Nat.sub_eq_zero_of_le (Nat.succ_le_of_lt h)]

/-- The item just pushed is the last one. -/
theorem getLast?_push (r : Ring α cap) (x : α) (hcap : 0 < cap) :
    (r.push x).items.getLast? = some x := by
  obtain ⟨n, rfl⟩ : ∃ n, cap = n + 1 := ⟨cap - 1, by omega⟩
  rw [push_items, List.rtake_concat_succ, List.getLast?_concat]

/-- The ring holds the tail of `log`, as long as the capacity allows. -/
def Holds (r : Ring α cap) (log : List α) : Prop := r.items = log.rtake cap

theorem Holds.empty : (empty : Ring α cap).Holds [] := by
  simp [Holds]

/-- Trimming twice to the same length is trimming once. -/
theorem rtake_rtake_append (log : List α) (x : α) (n : Nat) :
    (log.rtake n ++ [x]).rtake n = (log ++ [x]).rtake n := by
  cases n with
  | zero => simp
  | succ n =>
      rw [List.rtake_concat_succ, List.rtake_concat_succ]
      congr 1
      simp only [List.rtake, List.length_drop, List.drop_drop]
      congr 1
      omega

theorem Holds.push {r : Ring α cap} {log : List α} (h : r.Holds log) (x : α) :
    (r.push x).Holds (log ++ [x]) := by
  rw [Holds, push_items, h, rtake_rtake_append]

theorem Holds.pushAll {r : Ring α cap} {log : List α} (h : r.Holds log) (xs : List α) :
    (xs.foldl Ring.push r).Holds (log ++ xs) := by
  induction xs generalizing r log with
  | nil => rwa [List.append_nil]
  | cons x xs ih =>
      rw [List.foldl_cons, ← List.singleton_append, ← List.append_assoc]
      exact ih (h.push x)

/-- A ring that holds the tail of another still does when both are pushed to. -/
theorem push_tail {r r' : Ring α cap} {front : List α} (h : r.items = front ++ r'.items) (x : α) :
    ∃ kept, kept <:+ front ∧ (r.push x).items = kept ++ (r'.push x).items := by
  refine ⟨front.drop ((front ++ (r'.items ++ [x])).length - cap), List.drop_suffix _ _, ?_⟩
  rw [push_items, push_items, h, List.append_assoc, List.rtake, List.rtake, List.drop_append]
  congr 2
  simp only [List.length_append]
  omega

/-- The tail of a log with an end that has room is the tail of what is before, and the end. -/
theorem rtake_append {n : Nat} {log rest : List α} (h : rest.length ≤ n) :
    (log ++ rest).rtake n = log.rtake (n - rest.length) ++ rest := by
  have hlen : (log ++ rest).length - n = log.length - (n - rest.length) := by
    rw [List.length_append]
    omega
  rw [List.rtake, List.rtake, hlen, List.drop_append_of_le_length (Nat.sub_le _ _)]

/-- What is kept of a log has fewer items behind it than there is room for. -/
theorem mem_rtake_iff {n : Nat} {log : List α} {x : α} :
    x ∈ log.rtake n ↔ ∃ before after, log = before ++ x :: after ∧ after.length < n := by
  constructor
  · intro h
    obtain ⟨before, after, hkept⟩ := List.append_of_mem h
    refine ⟨log.take (log.length - n) ++ before, after, ?_, ?_⟩
    · rw [List.append_assoc, ← hkept, List.rtake, List.take_append_drop]
    · have hlen := congrArg List.length hkept
      rw [List.rtake, List.length_drop, List.length_append, List.length_cons] at hlen
      omega
  · rintro ⟨before, after, rfl, hlen⟩
    rw [rtake_append (by rw [List.length_cons]; omega)]
    exact List.mem_append_right _ List.mem_cons_self

theorem Holds.suffix {r : Ring α cap} {log : List α} (h : r.Holds log) :
    r.items <:+ log := by
  rw [h]
  exact List.drop_suffix _ _

theorem Holds.length {r : Ring α cap} {log : List α} (h : r.Holds log) :
    r.items.length = min log.length cap := by
  rw [h]
  simp only [List.rtake, List.length_drop]
  omega

end Ring

end SrxProbe.Lib
