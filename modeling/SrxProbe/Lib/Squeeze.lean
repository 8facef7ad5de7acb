import Mathlib.Data.List.Chain
import Mathlib.Data.List.DropRight

/-!
# Separators that count once

Lists in which a run of separators stands as one. `glue` puts two of them together and
`squeeze` makes one of any list; `squeeze` takes concatenation to `glue`, and a bound on the
length can be applied after each piece as well as once at the end.
-/

namespace SrxProbe.Lib

universe u

variable {α : Type u} [DecidableEq α] (sep : α)

/-! ## Gluing -/

/-- `t` behind `s`, without the separators it begins with if `s` ends in one. -/
def glue (s t : List α) : List α :=
  s ++ if s.getLast? = some sep then t.dropWhile (· = sep) else t

variable {sep} {s t : List α}

@[simp] theorem glue_nil (s : List α) : glue sep s [] = s := by simp [glue]

@[simp] theorem nil_glue (t : List α) : glue sep [] t = t := by simp [glue]

theorem glue_of_open (h : s.getLast? ≠ some sep) (t : List α) : glue sep s t = s ++ t := by
  rw [glue, if_neg h]

theorem glue_of_ended (h : s.getLast? = some sep) (t : List α) :
    glue sep s t = s ++ t.dropWhile (· = sep) := by
  rw [glue, if_pos h]

theorem length_le_glue (s t : List α) : s.length ≤ (glue sep s t).length := by
  simp [glue]

/-- Gluing is associative: a separator at an end is seen from either side. -/
theorem glue_assoc (s t v : List α) : glue sep (glue sep s t) v = glue sep s (glue sep t v) := by
  by_cases hs : s.getLast? = some sep
  · rw [glue_of_ended hs, glue_of_ended hs]
    by_cases ht : t.dropWhile (· = sep) = []
    · -- `t` is nothing but separators, and `s` ends in one already
      rw [ht, List.append_nil, glue_of_ended hs, glue, List.dropWhile_append, ht]
      by_cases hlast : t.getLast? = some sep
      · simp [hlast, List.dropWhile_idempotent]
      · simp [hlast]
    · have hlast : (s ++ t.dropWhile (· = sep)).getLast? = t.getLast? := by
        conv_rhs => rw [← List.takeWhile_append_dropWhile (p := (· = sep)) (l := t)]
        rw [List.getLast?_append_of_ne_nil _ ht, List.getLast?_append_of_ne_nil _ ht]
      have hdrop : ∀ w : List α, (t ++ w).dropWhile (· = sep) = t.dropWhile (· = sep) ++ w := by
        intro w
        rw [List.dropWhile_append, if_neg (by simpa using ht)]
      rw [glue, hlast, glue, hdrop, List.append_assoc]
  · rw [glue_of_open hs, glue_of_open hs]
    cases t with
    | nil => simp [glue_of_open hs]
    | cons a t =>
        rw [glue, List.getLast?_append_of_ne_nil _ (List.cons_ne_nil a t), glue, List.append_assoc]

/-- What is cut off the first list is cut off the whole. -/
theorem take_glue_take (n : Nat) (s t : List α) :
    (glue sep (s.take n) t).take n = (glue sep s t).take n := by
  by_cases hlen : s.length ≤ n
  · rw [List.take_of_length_le hlen]
  · have hfull : (s.take n).length = n := by simp; omega
    rw [glue, List.take_append_of_le_length (by omega), glue,
      List.take_append_of_le_length (by omega), List.take_take, Nat.min_self]

/-- A list is too long as soon as its first part is. -/
theorem lt_length_glue_take (n : Nat) (s t : List α) :
    n < s.length ∨ n < (glue sep (s.take n) t).length ↔ n < (glue sep s t).length := by
  by_cases hlen : s.length ≤ n
  · rw [List.take_of_length_le hlen]
    exact or_iff_right (Nat.not_lt.mpr hlen)
  · have hle : s.length ≤ (glue sep s t).length := length_le_glue s t
    exact iff_of_true (.inl (by omega)) (by omega)

/-! ## Squeezing -/

variable {blank : α → Bool}

/-- Every run of blanks is replaced by one separator. -/
def squeeze (blank : α → Bool) (sep : α) : List α → List α
  | [] => []
  | a :: rest => glue sep [if blank a then sep else a] (squeeze blank sep rest)

/-- **Squeezing takes concatenation to gluing.** -/
theorem squeeze_append (s t : List α) :
    squeeze blank sep (s ++ t) = glue sep (squeeze blank sep s) (squeeze blank sep t) := by
  induction s with
  | nil => simp [squeeze]
  | cons a s ih => rw [List.cons_append, squeeze, squeeze, ih, glue_assoc]

theorem squeeze_eq_nil : squeeze blank sep s = [] ↔ s = [] := by
  cases s with
  | nil => simp [squeeze]
  | cons a s => simp [squeeze, glue]

theorem squeeze_cons (hsep : blank sep = true) {a : α} (ha : blank a = false) (s : List α) :
    squeeze blank sep (a :: s) = a :: squeeze blank sep s := by
  have hne : a ≠ sep := by
    rintro rfl
    rw [hsep] at ha
    cases ha
  rw [squeeze, if_neg (by simp [ha]), glue_of_open (by simpa using hne)]
  rfl

theorem squeeze_blanks (hs : ∀ a ∈ s, blank a = true) (hne : s ≠ []) :
    squeeze blank sep s = [sep] := by
  induction s with
  | nil => exact absurd rfl hne
  | cons a s ih =>
      obtain ⟨ha, hrest⟩ := List.forall_mem_cons.mp hs
      rw [squeeze, if_pos ha]
      by_cases hnil : s = []
      · simp [hnil, squeeze]
      · simp [ih hrest hnil, glue]

/-- A run of blanks, with everything behind it. -/
theorem squeeze_run (hsep : blank sep = true) (hs : ∀ a ∈ s, blank a = true) (hne : s ≠ [])
    (ht : ∀ a, t.head? = some a → blank a = false) :
    squeeze blank sep (s ++ t) = sep :: squeeze blank sep t := by
  rw [squeeze_append, squeeze_blanks hs hne, glue_of_ended rfl]
  cases t with
  | nil => simp [squeeze]
  | cons a t =>
      have ha := ht a rfl
      have hne' : a ≠ sep := by
        rintro rfl
        rw [hsep] at ha
        cases ha
      simp [squeeze_cons hsep ha, hne']

/-- The pieces in their order, with blanks before, between and behind them. -/
inductive Interspersed (blank : α → Bool) : List (List α) → List α → Prop
  | nil : Interspersed blank [] []
  | blanks {pieces s w} : Interspersed blank pieces s → (∀ a ∈ w, blank a = true) →
      Interspersed blank pieces (s ++ w)
  | piece {pieces s} (t) : Interspersed blank pieces s → Interspersed blank (pieces ++ [t]) (s ++ t)

/-! ## Single separators -/

/-- No two separators stand next to each other. -/
theorem isChain_glue (hs : s.IsChain fun a b => ¬ (a = sep ∧ b = sep))
    (ht : t.IsChain fun a b => ¬ (a = sep ∧ b = sep)) :
    (glue sep s t).IsChain fun a b => ¬ (a = sep ∧ b = sep) := by
  by_cases hend : s.getLast? = some sep
  · rw [glue_of_ended hend]
    refine List.isChain_append.mpr ⟨hs, ht.suffix (List.dropWhile_suffix _), ?_⟩
    rintro a ha b hb ⟨-, rfl⟩
    have hnot := List.head?_dropWhile_not (fun c => decide (c = b)) t
    rw [Option.mem_def.mp hb] at hnot
    simp at hnot
  · rw [glue_of_open hend]
    refine List.isChain_append.mpr ⟨hs, ht, ?_⟩
    rintro a ha b hb ⟨rfl, -⟩
    exact hend ha

theorem isChain_squeeze (s : List α) :
    (squeeze blank sep s).IsChain fun a b => ¬ (a = sep ∧ b = sep) := by
  induction s with
  | nil => exact List.isChain_nil
  | cons a s ih => exact isChain_glue (List.isChain_singleton _) ih

end SrxProbe.Lib
