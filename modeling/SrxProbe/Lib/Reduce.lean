import Mathlib.Algebra.Order.BigOperators.Group.List
import Mathlib.Algebra.Order.Ring.Rat
import Mathlib.Data.Finset.Card
import Mathlib.Data.List.SplitBy

/-!
# Reductions of lists

`min(xs) if xs else None` and its like: a list put together by an associative
operation, in parts or as a whole, and lists cut into parts.
-/

namespace SrxProbe.Lib

universe u

variable {α : Type u}

/-- The items put together by `f`, `none` if there are none. -/
def reduce (f : α → α → α) : List α → Option α
  | [] => none
  | x :: xs => some (xs.foldl f x)

section assoc

variable {f : α → α → α} [hf : Std.Associative f]

theorem reduce_cons (x : α) (xs : List α) :
    reduce f (x :: xs) = some ((reduce f xs).elim x (f x)) := by
  cases xs with
  | nil => rfl
  | cons y ys =>
      show some ((ys.foldl f (f x y))) = some (f x (ys.foldl f y))
      rw [List.foldl_assoc]

theorem reduce_append (xs ys : List α) :
    reduce f (xs ++ ys) = (reduce f xs).merge f (reduce f ys) := by
  induction xs with
  | nil => simp [reduce]
  | cons x xs ih =>
      rw [List.cons_append, reduce_cons, reduce_cons, ih]
      cases reduce f xs with
      | none => cases reduce f ys <;> rfl
      | some m =>
          cases reduce f ys with
          | none => rfl
          | some m' => exact congrArg some (hf.assoc x m m').symm

/-- An item that may be missing goes in front. -/
theorem reduce_filterMap_cons {β : Type u} (g : β → Option α) (x : β) (xs : List β) :
    reduce f ((x :: xs).filterMap g) = (g x).merge f (reduce f (xs.filterMap g)) := by
  cases hx : g x with
  | none => rw [List.filterMap_cons_none hx, Option.merge_none_left]
  | some m =>
      rw [List.filterMap_cons_some hx, reduce_cons]
      cases reduce f (xs.filterMap g) <;> rfl

end assoc

/-! ## The least and the greatest item -/

section order

variable {κ : Type u} [LinearOrder κ]

theorem reduce_min (xs : List κ) : reduce min xs = xs.min? := by
  cases xs <;> rfl

theorem reduce_max (xs : List κ) : reduce max xs = xs.max? := by
  cases xs <;> rfl

end order

/-- The mean lies between the least and the greatest item. -/
theorem mean_mem {xs : List Rat} {lo hi : Rat} (hlo : xs.min? = some lo) (hhi : xs.max? = some hi) :
    lo ≤ xs.sum / xs.length ∧ xs.sum / xs.length ≤ hi := by
  have hne : xs ≠ [] := by
    rintro rfl
    cases hlo
  have hpos : (0 : Rat) < xs.length := by exact_mod_cast List.length_pos_iff.mpr hne
  have hlow := List.card_nsmul_le_sum xs lo (List.min?_eq_some_iff.mp hlo).2
  have hhigh := List.sum_le_card_nsmul xs hi (List.max?_eq_some_iff.mp hhi).2
  rw [nsmul_eq_mul] at hlow hhigh
  refine ⟨?_, ?_⟩
  · rw [le_div_iff₀ hpos, mul_comm]
    exact hlow
  · rw [div_le_iff₀ hpos, mul_comm]
    exact hhigh

/-! ## Runs of items with one key -/

section runs

variable {κ : Type u} [DecidableEq κ] {key : α → κ} {items run : List α} {front : List (List α)}

/-- The maximal runs of consecutive items with one key. -/
def runsBy (key : α → κ) (items : List α) : List (List α) :=
  items.splitBy fun x y => key x = key y

theorem flatten_runsBy (key : α → κ) (items : List α) : (runsBy key items).flatten = items :=
  List.flatten_splitBy _ _

theorem ne_nil_of_mem_runsBy (h : run ∈ runsBy key items) : run ≠ [] :=
  List.ne_nil_of_mem_splitBy h

/-- The items of a run have the key of the first. -/
theorem key_of_isChain {x : α} {run : List α}
    (h : (x :: run).IsChain fun a b => decide (key a = key b) = true) :
    ∀ y ∈ run, key y = key x := by
  induction run generalizing x with
  | nil => exact nofun
  | cons y run ih =>
      rw [List.isChain_cons_cons] at h
      have hxy : key x = key y := of_decide_eq_true h.1
      intro z hz
      rcases List.mem_cons.mp hz with rfl | hz
      · exact hxy.symm
      · exact (ih h.2 z hz).trans hxy.symm

theorem key_of_mem_runsBy (h : run ∈ runsBy key items) :
    ∀ x ∈ run, ∀ y ∈ run, key x = key y := by
  have hchain := List.isChain_of_mem_splitBy h
  cases run with
  | nil => exact nofun
  | cons z run =>
      have hkey : ∀ x ∈ z :: run, key x = key z := by
        intro x hx
        rcases List.mem_cons.mp hx with rfl | hx
        · rfl
        · exact key_of_isChain hchain x hx
      intro x hx y hy
      exact (hkey x hx).trans (hkey y hy).symm

/-- Neighbouring runs have different keys. -/
theorem isChain_runsBy (items : List α) :
    (runsBy key items).IsChain fun run run' => ∀ x ∈ run, ∀ y ∈ run', key x ≠ key y := by
  have hchain := List.isChain_getLast_head_splitBy (fun x y => decide (key x = key y)) items
  have hkeys : ∀ run ∈ runsBy key items, ∀ x ∈ run, ∀ y ∈ run, key x = key y :=
    fun _ => key_of_mem_runsBy
  refine List.IsChain.imp_of_mem_imp ?_ hchain
  intro run run' hrun hrun' ⟨hne, hne', hkey⟩ x hx y hy heq
  rw [decide_eq_false_iff_not] at hkey
  refine hkey ?_
  calc key (run.getLast hne) = key x := hkeys run hrun _ (List.getLast_mem hne) x hx
    _ = key y := heq
    _ = key (run'.head hne') := hkeys run' hrun' y hy _ (List.head_mem hne')

/-- Dropping whole parts is dropping their items. -/
theorem flatten_filter (keep : α → Bool) {parts : List (List α)} {keepPart : List α → Bool}
    (h : ∀ part ∈ parts, ∀ x ∈ part, keepPart part = keep x) :
    (parts.filter keepPart).flatten = parts.flatten.filter keep := by
  induction parts with
  | nil => rfl
  | cons part parts ih =>
      have hrec := ih fun p hp => h p (List.mem_cons_of_mem part hp)
      have hpart := h part List.mem_cons_self
      rw [List.filter_cons, List.flatten_cons, List.filter_append, ← hrec]
      split
      · rename_i hkeep
        have hall : part.filter keep = part :=
          List.filter_eq_self.mpr fun x hx => (hpart x hx).symm.trans hkeep
        rw [List.flatten_cons, hall]
      · rename_i hdrop
        have hnone : part.filter keep = [] :=
          List.filter_eq_nil_iff.mpr fun x hx => (hpart x hx) ▸ hdrop
        rw [hnone, List.nil_append]

/-- An item of another key starts a run. -/
theorem runsBy_concat_new {x : α} (h : ∀ y ∈ items.getLast?, key y ≠ key x) :
    runsBy key (items ++ [x]) = runsBy key items ++ [[x]] := by
  unfold runsBy
  rw [List.splitBy_append]
  · rfl
  · intro y hy z hz
    cases hz
    exact decide_eq_false (h y hy)

/-- An item of the same key joins the last run. -/
theorem runsBy_concat_same {x : α} (hruns : runsBy key items = front ++ [run])
    (h : ∀ y ∈ run, key y = key x) : runsBy key (items ++ [x]) = front ++ [run ++ [x]] := by
  have hitems : items = front.flatten ++ run := by
    rw [← flatten_runsBy key items, hruns]
    simp
  have hne : run ≠ [] := ne_nil_of_mem_runsBy (hruns ▸ List.mem_append_right _ List.mem_cons_self)
  obtain ⟨hflat, hnil, hchains, hbreaks⟩ := List.splitBy_eq_iff.mp hruns
  refine List.splitBy_eq_iff.mpr ⟨?_, ?_, ?_, ?_⟩
  · rw [hitems]
    simp
  · intro hmem
    rcases List.mem_append.mp hmem with hmem | hmem
    · exact hnil (List.mem_append_left _ hmem)
    · exact absurd (List.mem_singleton.mp hmem).symm (List.concat_ne_nil x run)
  · intro part hpart
    rcases List.mem_append.mp hpart with hpart | hpart
    · exact hchains part (List.mem_append_left _ hpart)
    · rw [List.mem_singleton.mp hpart, List.isChain_append]
      refine ⟨hchains run (List.mem_append_right _ List.mem_cons_self),
        List.isChain_singleton _, ?_⟩
      intro y hy z hz
      cases hz
      exact decide_eq_true (h y (List.mem_of_mem_getLast? hy))
  · rw [List.isChain_append] at hbreaks ⊢
    refine ⟨hbreaks.1, List.isChain_singleton _, ?_⟩
    intro part hpart next hnext
    cases hnext
    obtain ⟨hlast, hhead, hdiffer⟩ := hbreaks.2.2 part hpart run rfl
    refine ⟨hlast, List.append_ne_nil_of_left_ne_nil hne _, ?_⟩
    rwa [List.head_append_of_ne_nil hne]

end runs

/-! ## Items in order -/

/-- Where a property goes on once it holds, the items with it come last. -/
theorem exists_filter_suffix {p : α → Bool} {l : List α}
    (h : l.Pairwise fun x y => p x = true → p y = true) :
    ∃ front, l = front ++ l.filter p ∧ ∀ x ∈ front, p x = false := by
  induction l with
  | nil => exact ⟨[], rfl, fun _ hx => by cases hx⟩
  | cons x l ih =>
      obtain ⟨hx, hl⟩ := List.pairwise_cons.mp h
      cases hp : p x with
      | true =>
          refine ⟨[], ?_, fun _ hy => by cases hy⟩
          rw [List.nil_append, List.filter_eq_self.mpr]
          intro y hy
          rcases List.mem_cons.mp hy with rfl | hy
          · exact hp
          · exact hx y hy hp
      | false =>
          obtain ⟨front, hfront, hold⟩ := ih hl
          refine ⟨x :: front, ?_, ?_⟩
          · rw [List.filter_cons_of_neg (by rw [hp]; exact Bool.false_ne_true), List.cons_append,
              ← hfront]
          · intro y hy
            rcases List.mem_cons.mp hy with rfl | hy
            · exact hp
            · exact hold y hy

section increasing

variable {κ : Type u} [LinearOrder κ] {key : α → κ} {items run : List α}

/-- Parts in order whose neighbours differ are strictly in order. -/
theorem pairwise_lt_of_chain {parts : List (List α)} (hne : ∀ part ∈ parts, part ≠ [])
    (hle : parts.Pairwise fun part part' => ∀ x ∈ part, ∀ y ∈ part', key x ≤ key y)
    (hchain : parts.IsChain fun part part' => ∀ x ∈ part, ∀ y ∈ part', key x ≠ key y) :
    parts.Pairwise fun part part' => ∀ x ∈ part, ∀ y ∈ part', key x < key y := by
  induction parts with
  | nil => exact .nil
  | cons part parts ih =>
      obtain ⟨hfirst, hrest⟩ := List.pairwise_cons.mp hle
      have hlater := ih (fun p hp => hne p (List.mem_cons_of_mem part hp)) hrest hchain.tail
      refine List.pairwise_cons.mpr ⟨?_, hlater⟩
      intro part' hmem x hx y hy
      cases parts with
      | nil => cases hmem
      | cons next parts =>
          have hnext : ∀ z ∈ next, key x < key z := fun z hz =>
            lt_of_le_of_ne (hfirst next List.mem_cons_self x hx z hz)
              ((List.isChain_cons_cons.mp hchain).1 x hx z hz)
          rcases List.mem_cons.mp hmem with rfl | hmem
          · exact hnext y hy
          · -- over an item of the part between
            obtain ⟨z, hz⟩ := List.exists_mem_of_ne_nil next (hne next (by simp))
            exact (hnext z hz).trans ((List.pairwise_cons.mp hlater).1 part' hmem z hz y hy)

/-- The runs of items in order have increasing keys. -/
theorem runsBy_increasing (h : items.Pairwise fun x y => key x ≤ key y) :
    (runsBy key items).Pairwise fun run run' => ∀ x ∈ run, ∀ y ∈ run', key x < key y := by
  rw [← flatten_runsBy key items, List.pairwise_flatten] at h
  exact pairwise_lt_of_chain (fun _ => ne_nil_of_mem_runsBy) h.2 (isChain_runsBy items)

/-- Parts of one key each, strictly in order, are as many as their keys. -/
theorem length_eq_card_keys {parts : List (List α)} (hne : ∀ part ∈ parts, part ≠ [])
    (hkey : ∀ part ∈ parts, ∀ x ∈ part, ∀ y ∈ part, key x = key y)
    (hlt : parts.Pairwise fun part part' => ∀ x ∈ part, ∀ y ∈ part', key x < key y) :
    parts.length = (parts.flatten.map key).toFinset.card := by
  induction parts with
  | nil => rfl
  | cons part parts ih =>
      obtain ⟨hfirst, hrest⟩ := List.pairwise_cons.mp hlt
      have hlater := ih (fun p hp => hne p (List.mem_cons_of_mem part hp))
        (fun p hp => hkey p (List.mem_cons_of_mem part hp)) hrest
      obtain ⟨x, hx⟩ := List.exists_mem_of_ne_nil part (hne part List.mem_cons_self)
      have hnew : key x ∉ (parts.flatten.map key).toFinset := by
        intro hmem
        obtain ⟨y, hy, heq⟩ := List.mem_map.mp (List.mem_toFinset.mp hmem)
        obtain ⟨part', hpart', hy⟩ := List.mem_flatten.mp hy
        exact (hfirst part' hpart' x hx y hy).ne heq.symm
      have hkeys : ((part :: parts).flatten.map key).toFinset =
          insert (key x) (parts.flatten.map key).toFinset := by
        ext k
        simp only [List.flatten_cons, List.map_append, List.toFinset_append, Finset.mem_union,
          Finset.mem_insert, List.mem_toFinset]
        refine or_congr_left ⟨fun hk => ?_, fun hk => hk ▸ List.mem_map_of_mem hx⟩
        obtain ⟨y, hy, rfl⟩ := List.mem_map.mp hk
        exact hkey part List.mem_cons_self y hy x hx
      rw [hkeys, Finset.card_insert_of_notMem hnew, List.length_cons, hlater]

/-- Among items in order, a run has all the items with its key. -/
theorem run_eq_filter (h : items.Pairwise fun x y => key x ≤ key y)
    (hrun : run ∈ runsBy key items) {x : α} (hx : x ∈ run) :
    items.filter (fun y => key y = key x) = run := by
  have hkeys := key_of_mem_runsBy hrun
  have hincreasing := runsBy_increasing h
  obtain ⟨front, back, hsplit⟩ := List.append_of_mem hrun
  rw [hsplit, List.pairwise_append, List.pairwise_cons] at hincreasing
  obtain ⟨-, ⟨hback, -⟩, hfront⟩ := hincreasing
  have hitems : items = front.flatten ++ (run ++ back.flatten) := by
    rw [← List.flatten_cons, ← List.flatten_append, ← hsplit, flatten_runsBy]
  have hbefore : front.flatten.filter (fun y => key y = key x) = [] := by
    refine List.filter_eq_nil_iff.mpr fun y hy => ?_
    obtain ⟨part, hpart, hy⟩ := List.mem_flatten.mp hy
    simpa using (hfront part hpart run List.mem_cons_self y hy x hx).ne
  have hbehind : back.flatten.filter (fun y => key y = key x) = [] := by
    refine List.filter_eq_nil_iff.mpr fun y hy => ?_
    obtain ⟨part, hpart, hy⟩ := List.mem_flatten.mp hy
    simpa using (hback part hpart x hx y hy).ne'
  have hself : run.filter (fun y => key y = key x) = run :=
    List.filter_eq_self.mpr fun y hy => decide_eq_true (hkeys y hy x hx)
  rw [hitems, List.filter_append, List.filter_append, hbefore, hbehind, hself, List.nil_append,
    List.append_nil]

end increasing

end SrxProbe.Lib
