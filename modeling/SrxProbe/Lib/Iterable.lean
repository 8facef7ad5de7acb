import Mathlib.Data.List.Forall2
import Mathlib.Data.List.Sort
import Mathlib.Data.Rat.Defs

/-!
# Iterables and stable sorting

What a function can do with an iterable argument. A container can be read again
and again; a one-shot iterator is used up by the first reading, in part if the
reader stops early. Every reader returns what it leaves of its argument.
-/

namespace SrxProbe.Lib

universe u v

/-- An iterable: what it still has to give, and whether giving uses it up. -/
structure Iterable (α : Type u) where
  items : List α
  oneShot : Bool

namespace Iterable

variable {α : Type u}

/-- A list passed as an iterable. -/
def ofList (items : List α) : Iterable α := ⟨items, false⟩

/-- What a reader that takes all but the items `rest` leaves. -/
def leave (it : Iterable α) (rest : List α) : Iterable α :=
  if it.oneShot then ⟨rest, true⟩ else it

/-- `list(it)`. -/
def toList (it : Iterable α) : List α × Iterable α := (it.items, it.leave [])

/-- `any(p(x) for x in it)`: stops behind the first item that satisfies `p`. -/
def any (p : α → Bool) (it : Iterable α) : Bool × Iterable α :=
  (it.items.any p, it.leave (it.items.dropWhile (fun x => !p x)).tail)

@[simp] theorem toList_fst (it : Iterable α) : it.toList.1 = it.items := rfl

@[simp] theorem any_fst (p : α → Bool) (it : Iterable α) : (it.any p).1 = it.items.any p := rfl

end Iterable

/-! ## Interleaving -/

/-- `merged` holds the items of two lists, each in its own order. -/
inductive Interleave {α : Type u} : List α → List α → List α → Prop
  | nil : Interleave [] [] []
  | left {x : α} {items inserted merged : List α} (h : Interleave items inserted merged) :
      Interleave (x :: items) inserted (x :: merged)
  | right {x : α} {items inserted merged : List α} (h : Interleave items inserted merged) :
      Interleave items (x :: inserted) (x :: merged)

/-- Inserting what a filter drops changes nothing of what it keeps. -/
theorem Interleave.filter_eq {α : Type u} {keep : α → Bool} {items inserted merged : List α}
    (h : Interleave items inserted merged) (hdrop : ∀ x ∈ inserted, keep x = false) :
    merged.filter keep = items.filter keep := by
  induction h with
  | nil => rfl
  | left _ ih => rw [List.filter_cons, List.filter_cons, ih hdrop]
  | right _ ih =>
      rw [List.filter_cons, hdrop _ List.mem_cons_self]
      exact ih fun x hx => hdrop x (List.mem_cons_of_mem _ hx)

/-- What corresponds to a list with a last item has one. -/
theorem forall₂_concat {α : Type u} {β : Type v} {R : α → β → Prop} {items : List α} {x : α}
    {items' : List β} (h : List.Forall₂ R (items ++ [x]) items') :
    ∃ front y, items' = front ++ [y] ∧ List.Forall₂ R items front ∧ R x y := by
  have hrev := List.forall₂_reverse_iff.mpr h
  rw [List.reverse_append, List.reverse_singleton, List.singleton_append] at hrev
  obtain ⟨y, front, hhead, htail, heq⟩ := List.forall₂_cons_left_iff.mp hrev
  refine ⟨front.reverse, y, ?_, ?_, hhead⟩
  · rw [← List.reverse_cons, ← heq, List.reverse_reverse]
  · rw [← List.forall₂_reverse_iff, List.reverse_reverse]
    exact htail

/-! ## Stable sorting -/

section sort

variable {α : Type u} {κ : Type v} [LinearOrder κ]

/-- `items.sort(key=key)`. -/
def sortBy (key : α → κ) (items : List α) : List α :=
  items.insertionSort (fun a b => key a ≤ key b)

theorem perm_sortBy (key : α → κ) (items : List α) : (sortBy key items).Perm items :=
  List.perm_insertionSort _ items

theorem mem_sortBy {key : α → κ} {items : List α} {x : α} : x ∈ sortBy key items ↔ x ∈ items :=
  (perm_sortBy key items).mem_iff

theorem pairwise_le_sortBy (key : α → κ) (items : List α) :
    (sortBy key items).Pairwise fun x y => key x ≤ key y :=
  List.pairwise_insertionSort (fun x y => key x ≤ key y) items

/-- Items with different keys are sorted strictly. -/
theorem pairwise_sortBy {key : α → κ} {items : List α} (h : (items.map key).Nodup) :
    (sortBy key items).Pairwise fun x y => key x < key y := by
  have hle := pairwise_le_sortBy key items
  have hne : (sortBy key items).Pairwise fun x y => key x ≠ key y :=
    List.pairwise_map.mp (((perm_sortBy key items).map key).nodup_iff.mpr h)
  exact (hle.and hne).imp fun h => lt_of_le_of_ne h.1 h.2

/-- Items with one key keep the order in which they came. -/
theorem filter_key_sortBy (key : α → κ) (items : List α) (k : κ) :
    (sortBy key items).filter (fun x => key x = k) = items.filter fun x => key x = k := by
  have hsorted : (items.filter fun x => key x = k).Pairwise fun x y => key x ≤ key y := by
    refine List.pairwise_of_forall_mem_list ?_
    intro x hx y hy
    have hkx : key x = k := of_decide_eq_true (List.mem_filter.mp hx).2
    have hky : key y = k := of_decide_eq_true (List.mem_filter.mp hy).2
    exact le_of_eq (hkx.trans hky.symm)
  have hsub : (items.filter fun x => key x = k).Sublist (sortBy key items) :=
    List.sublist_insertionSort hsorted List.filter_sublist
  have hfilter := hsub.filter fun x => key x = k
  rw [List.filter_filter] at hfilter
  simp only [Bool.and_self] at hfilter
  exact (hfilter.eq_of_length (((perm_sortBy key items).filter _).length_eq).symm).symm

/-- Sorting part of the items gives part of the sorted items. -/
theorem sortBy_sublist (key : α → κ) {items items' : List α} (h : items.Sublist items') :
    (sortBy key items).Sublist (sortBy key items') := by
  induction h with
  | slnil => exact List.Sublist.refl _
  | cons a _ ih => exact ih.trans (List.sublist_orderedInsert a _)
  | cons_cons a _ ih =>
      show (List.orderedInsert _ a (sortBy key _)).Sublist (List.orderedInsert _ a (sortBy key _))
      exact List.Sublist.orderedInsert_sublist a ih (pairwise_le_sortBy key _)

/-- Items that correspond, key by key, are sorted alike. -/
theorem forall₂_sortBy {key : α → κ} {R : α → α → Prop} (hR : ∀ x y, R x y → key x = key y)
    {items items' : List α} (h : List.Forall₂ R items items') :
    List.Forall₂ R (sortBy key items) (sortBy key items') := by
  have hinsert : ∀ x y, R x y → ∀ l l', List.Forall₂ R l l' →
      List.Forall₂ R (l.orderedInsert (fun a b => key a ≤ key b) x)
        (l'.orderedInsert (fun a b => key a ≤ key b) y) := by
    intro x y hxy l l' hl
    induction hl with
    | nil => exact .cons hxy .nil
    | cons hhead htail ih =>
        rw [List.orderedInsert_cons, List.orderedInsert_cons, hR _ _ hxy, hR _ _ hhead]
        split
        · exact .cons hxy (.cons hhead htail)
        · exact .cons hhead ih
  induction h with
  | nil => exact .nil
  | cons hhead _ ih => exact hinsert _ _ hhead _ _ ih

/-- The first of the items with the least key. -/
def IsFirstLeast (key : α → κ) (items : List α) (x : α) : Prop :=
  ∃ before after, items = before ++ x :: after ∧ (∀ y ∈ before, key x < key y) ∧
    ∀ y ∈ after, key x ≤ key y

theorem IsFirstLeast.le {key : α → κ} {items : List α} {x : α} (h : IsFirstLeast key items x) :
    ∀ y ∈ items, key x ≤ key y := by
  obtain ⟨before, after, rfl, hbefore, hafter⟩ := h
  intro y hy
  rcases List.mem_append.mp hy with hy | hy
  · exact le_of_lt (hbefore y hy)
  · rcases List.mem_cons.mp hy with rfl | hy
    · exact le_refl _
    · exact hafter y hy

/-- A stable sort puts the first least item in front. -/
theorem head?_sortBy {key : α → κ} {items : List α} {x : α}
    (h : (sortBy key items).head? = some x) :
    IsFirstLeast key items x := by
  induction items generalizing x with
  | nil => cases h
  | cons a items ih =>
      have hinsert : sortBy key (a :: items) =
          List.orderedInsert (fun a b => key a ≤ key b) a (sortBy key items) := rfl
      rw [hinsert] at h
      cases hsorted : sortBy key items with
      | nil =>
          -- nothing else was sorted
          have hnil : items = [] := by
            rw [List.eq_nil_iff_forall_not_mem]
            intro y hy
            have hmem : y ∈ sortBy key items := mem_sortBy.mpr hy
            rw [hsorted] at hmem
            cases hmem
          rw [hsorted] at h
          cases h
          exact ⟨[], items, rfl, nofun, fun y hy => by rw [hnil] at hy; cases hy⟩
      | cons b rest =>
          have hb := ih (x := b) (by rw [hsorted]; rfl)
          rw [hsorted, List.orderedInsert] at h
          split at h
          · rename_i hle
            cases h
            refine ⟨[], items, rfl, nofun, ?_⟩
            intro y hy
            exact le_trans hle (hb.le y hy)
          · rename_i hlt
            cases h
            obtain ⟨before, after, hitems, hbefore, hafter⟩ := hb
            refine ⟨a :: before, after, ?_, ?_, hafter⟩
            · rw [hitems, List.cons_append]
            · intro y hy
              rcases List.mem_cons.mp hy with rfl | hy
              · exact lt_of_not_ge hlt
              · exact hbefore y hy

theorem sortBy_eq_nil {key : α → κ} {items : List α} : sortBy key items = [] ↔ items = [] := by
  constructor
  · intro h
    rw [List.eq_nil_iff_forall_not_mem]
    intro y hy
    have hmem : y ∈ sortBy key items := mem_sortBy.mpr hy
    rw [h] at hmem
    cases hmem
  · intro h
    rw [h]
    rfl

end sort

end SrxProbe.Lib
