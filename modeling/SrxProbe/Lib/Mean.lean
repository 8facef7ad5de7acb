import Mathlib.Algebra.BigOperators.Ring.List
import Mathlib.Algebra.Field.Basic
import Mathlib.Algebra.CharZero.Defs
import Mathlib.Tactic.Ring

/-!
# Means of groups

The mean of a list, and what becomes of it when the means of groups are averaged in place
of their items: two weightings of the groups give one mean exactly if, over all pairs of
groups, neither goes along with the means where the other does not.
-/

namespace SrxProbe.Lib

universe u v

/-! ## Two weightings -/

section weights

variable {ι : Type u} {K : Type v} [Field K] {w r a : ι → K} {l : List ι}

/-- The mean of `a` under the weights `w`. -/
def weightedMean (w a : ι → K) (l : List ι) : K :=
  (l.map fun x => w x * a x).sum / (l.map w).sum

/-- How differently the weights `w` and `r` go along with the values `a`, over all pairs. -/
def discord (w r a : ι → K) (l : List ι) : K :=
  (l.map fun x => (l.map fun y => (w x * r y - w y * r x) * (a x - a y)).sum).sum

theorem discord_eq (w r a : ι → K) (l : List ι) :
    discord w r a l = 2 * ((l.map fun x => w x * a x).sum * (l.map r).sum -
      (l.map fun x => r x * a x).sum * (l.map w).sum) := by
  have hsplit : ∀ x y, (w x * r y - w y * r x) * (a x - a y) =
      ((w x * a x) * r y + r x * (w y * a y)) +
        (-1) * (w x * (r y * a y) + (r x * a x) * w y) := by
    intro x y
    ring
  unfold discord
  simp only [hsplit, List.sum_map_add, List.sum_map_mul_left, List.sum_map_mul_right]
  ring

/-- Two weightings have one mean exactly if they are not in discord. -/
theorem weightedMean_eq_iff [CharZero K] (hw : (l.map w).sum ≠ 0) (hr : (l.map r).sum ≠ 0) :
    weightedMean w a l = weightedMean r a l ↔ discord w r a l = 0 := by
  rw [weightedMean, weightedMean, div_eq_div_iff hw hr, discord_eq, mul_eq_zero, sub_eq_zero]
  have htwo : (2 : K) ≠ 0 := OfNat.ofNat_ne_zero 2
  exact ⟨.inr, fun h => h.resolve_left htwo⟩

end weights

/-! ## Groups of items -/

section groups

variable {K : Type v} {groups : List (Bool × List K)}

/-- The groups with items. -/
def filled (groups : List (Bool × List K)) : List (Bool × List K) :=
  groups.filter fun g => !g.2.isEmpty

theorem flatMap_ne_nil_iff : groups.flatMap Prod.snd ≠ [] ↔ filled groups ≠ [] := by
  rw [Ne, List.flatMap_eq_nil_iff, Ne, filled, List.filter_eq_nil_iff, not_iff_not]
  simp

variable [Field K]

/-- The mean of the items, `none` if there are none. -/
def mean? (items : List K) : Option K :=
  if items.isEmpty then none else some (items.sum / items.length)

theorem mean?_of_ne_nil {items : List K} (h : items ≠ []) :
    mean? items = some (items.sum / items.length) := by
  rw [mean?, List.isEmpty_eq_false_iff.mpr h]
  rfl

/-- The means of the groups that are marked. -/
def markedMeans (groups : List (Bool × List K)) : List K :=
  groups.filterMap fun g => if g.1 then mean? g.2 else none

/-- The mean of the marked groups' means stands for that of all items: some marked group
has items if any has, and the marks are not in discord with the sizes. -/
structure Balanced (groups : List (Bool × List K)) : Prop where
  marked : filled groups ≠ [] → ∃ g ∈ filled groups, g.1 = true
  even : discord (fun g => if g.1 then 1 else 0) (fun g => (g.2.length : K))
    (fun g => g.2.sum / g.2.length) (filled groups) = 0

/-- What is added up of the groups, in terms of their marks, sizes and means. -/
theorem sums_of_groups [CharZero K] (groups : List (Bool × List K)) :
    (markedMeans groups).sum = ((filled groups).map fun g =>
        (if g.1 then 1 else 0) * (g.2.sum / (g.2.length : K))).sum ∧
    ((markedMeans groups).length : K) = ((filled groups).map fun g => if g.1 then 1 else 0).sum ∧
    (groups.flatMap Prod.snd).sum = ((filled groups).map fun g =>
        (g.2.length : K) * (g.2.sum / g.2.length)).sum ∧
    ((groups.flatMap Prod.snd).length : K) =
      ((filled groups).map fun g => (g.2.length : K)).sum := by
  induction groups with
  | nil => simp [markedMeans, filled]
  | cons g groups ih =>
      obtain ⟨mark, items⟩ := g
      obtain ⟨hsum, hlen, hall, hsize⟩ := ih
      by_cases hnil : items = []
      · -- a group without items adds nothing anywhere
        subst hnil
        have hmarked : markedMeans ((mark, []) :: groups) = markedMeans groups := by
          cases mark <;> rfl
        have hfilled : filled ((mark, ([] : List K)) :: groups) = filled groups := rfl
        rw [hmarked, hfilled, List.flatMap_cons, List.nil_append]
        exact ⟨hsum, hlen, hall, hsize⟩
      · have hfilled : filled ((mark, items) :: groups) = (mark, items) :: filled groups := by
          rw [filled, List.filter_cons_of_pos]
          · rfl
          · rw [List.isEmpty_eq_false_iff.mpr hnil]
            rfl
        have hpos : (items.length : K) ≠ 0 :=
          Nat.cast_ne_zero.mpr (List.length_pos_iff.mpr hnil).ne'
        rw [hfilled, List.flatMap_cons, List.sum_append, List.length_append, hall, Nat.cast_add,
          hsize]
        simp only [List.map_cons, List.sum_cons, mul_div_cancel₀ _ hpos]
        cases mark with
        | false =>
            have hmarked : markedMeans ((false, items) :: groups) = markedMeans groups := rfl
            rw [hmarked, hsum, hlen]
            simp
        | true =>
            have hmarked : markedMeans ((true, items) :: groups) =
                items.sum / items.length :: markedMeans groups := by
              have hmean : (if ((true, items) : Bool × List K).1 then mean? items else none) =
                  some (items.sum / items.length) := mean?_of_ne_nil hnil
              exact List.filterMap_cons_some hmean
            rw [hmarked, List.sum_cons, List.length_cons, Nat.cast_succ, hsum, hlen]
            simp [add_comm]

theorem markedMeans_ne_nil_iff : markedMeans groups ≠ [] ↔ ∃ g ∈ filled groups, g.1 = true := by
  constructor
  · intro hne
    obtain ⟨m, hm⟩ := List.exists_mem_of_ne_nil _ hne
    obtain ⟨g, hg, hmean⟩ := List.mem_filterMap.mp hm
    split at hmean
    next hmark =>
      refine ⟨g, List.mem_filter.mpr ⟨hg, ?_⟩, hmark⟩
      cases hempty : g.2.isEmpty with
      | false => rfl
      | true =>
          rw [mean?, hempty] at hmean
          cases hmean
    next => cases hmean
  · rintro ⟨g, hg, hmark⟩
    obtain ⟨hg, hitems⟩ := List.mem_filter.mp hg
    have hne : g.2 ≠ [] := by
      intro hnil
      rw [hnil] at hitems
      cases hitems
    refine List.ne_nil_of_mem (a := g.2.sum / g.2.length) (List.mem_filterMap.mpr ⟨g, hg, ?_⟩)
    rw [if_pos hmark]
    exact mean?_of_ne_nil hne

/-- **The mean of means is the mean** exactly for balanced groups. -/
theorem mean?_markedMeans_iff [CharZero K] :
    mean? (markedMeans groups) = mean? (groups.flatMap Prod.snd) ↔ Balanced groups := by
  obtain ⟨hsum, hlen, hall, hsize⟩ := sums_of_groups groups
  by_cases hfilled : filled groups = []
  · have hflat : groups.flatMap Prod.snd = [] :=
      not_not.mp fun hne => flatMap_ne_nil_iff.mp hne hfilled
    have hmarked : markedMeans groups = [] := by
      refine not_not.mp fun hne => ?_
      obtain ⟨g, hg, -⟩ := markedMeans_ne_nil_iff.mp hne
      rw [hfilled] at hg
      cases hg
    rw [hflat, hmarked]
    refine ⟨fun _ => ⟨fun h => absurd hfilled h, ?_⟩, fun _ => rfl⟩
    rw [hfilled]
    rfl
  · have hflat := flatMap_ne_nil_iff.mpr hfilled
    have hr : (groups.flatMap Prod.snd).length ≠ 0 := (List.length_pos_iff.mpr hflat).ne'
    have hr' : ((filled groups).map fun g => (g.2.length : K)).sum ≠ 0 := by
      rw [← hsize]
      exact Nat.cast_ne_zero.mpr hr
    by_cases hmarked : markedMeans groups = []
    · rw [hmarked, mean?_of_ne_nil hflat]
      refine ⟨nofun, fun h => ?_⟩
      exact absurd hmarked (markedMeans_ne_nil_iff.mpr (h.marked hfilled))
    · have hw : ((filled groups).map fun g => if g.1 then (1 : K) else 0).sum ≠ 0 := by
        rw [← hlen]
        exact Nat.cast_ne_zero.mpr (List.length_pos_iff.mpr hmarked).ne'
      have hiff := weightedMean_eq_iff (a := fun g : Bool × List K => g.2.sum / g.2.length) hw hr'
      rw [mean?_of_ne_nil hmarked, mean?_of_ne_nil hflat, Option.some.injEq, hsum, hlen, hall,
        hsize]
      exact hiff.trans ⟨fun h => ⟨fun _ => markedMeans_ne_nil_iff.mp hmarked, h⟩, fun h => h.even⟩

end groups

end SrxProbe.Lib
