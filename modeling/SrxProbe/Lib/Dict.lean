import Mathlib.Data.List.DropRight
import Mathlib.Data.List.Nodup

/-!
# Ordered dictionaries

Maps that remember the order in which their keys were first set: setting a key
that is there replaces its value where it stands. That the keys are distinct is
part of the type.
-/

namespace SrxProbe.Lib

universe u v

/-- A map in insertion order, oldest key first. -/
structure Dict (κ : Type u) (β : Type v) where
  entries : List (κ × β)
  nodup : (entries.map Prod.fst).Nodup

namespace Dict

variable {κ : Type u} {β : Type v}

def empty : Dict κ β := ⟨[], List.nodup_nil⟩

def keys (d : Dict κ β) : List κ := d.entries.map Prod.fst

def values (d : Dict κ β) : List β := d.entries.map Prod.snd

theorem ext_entries {d d' : Dict κ β} (h : d.entries = d'.entries) : d = d' := by
  cases d
  cases d'
  cases h
  rfl

@[simp] theorem length_values (d : Dict κ β) : d.values.length = d.entries.length :=
  List.length_map _

/-! ## Setting -/

section set

variable [DecidableEq κ]

/-- The entries with `k` set to `v`. -/
def setEntry (k : κ) (v : β) : List (κ × β) → List (κ × β)
  | [] => [(k, v)]
  | (j, w) :: rest => if j = k then (k, v) :: rest else (j, w) :: setEntry k v rest

theorem setEntry_keys (k : κ) (v : β) (entries : List (κ × β)) :
    (setEntry k v entries).map Prod.fst =
      if k ∈ entries.map Prod.fst then entries.map Prod.fst
      else entries.map Prod.fst ++ [k] := by
  induction entries with
  | nil => rfl
  | cons entry rest ih =>
      obtain ⟨j, w⟩ := entry
      unfold setEntry
      by_cases hj : j = k
      · subst hj
        simp
      · rw [if_neg hj, List.map_cons, ih]
        by_cases hmem : k ∈ rest.map Prod.fst
        · rw [if_pos hmem, if_pos (by simpa using .inr (by simpa using hmem))]
          rfl
        · have hnot : k ∉ ((j, w) :: rest).map Prod.fst := by
            rw [List.map_cons, List.mem_cons, not_or]
            exact ⟨Ne.symm hj, hmem⟩
          rw [if_neg hmem, if_neg hnot]
          rfl

/-- `d[k] = v`. -/
def set (d : Dict κ β) (k : κ) (v : β) : Dict κ β where
  entries := setEntry k v d.entries
  nodup := by
    rw [setEntry_keys]
    split
    · exact d.nodup
    · rename_i hnot
      rw [List.nodup_append]
      refine ⟨d.nodup, List.nodup_singleton k, ?_⟩
      intro j hj k' hk' heq
      rw [List.mem_singleton] at hk'
      exact hnot (hk' ▸ heq ▸ hj)

def get? (d : Dict κ β) (k : κ) : Option β := d.entries.lookup k

theorem lookup_cons_ite [BEq κ] [LawfulBEq κ] (entry : κ × β) (rest : List (κ × β)) (j : κ) :
    (entry :: rest).lookup j = if j = entry.1 then some entry.2 else rest.lookup j := by
  rw [List.lookup_cons]
  by_cases hj : j = entry.1
  · rw [if_pos hj, beq_iff_eq.mpr hj]
  · rw [if_neg hj, beq_eq_false_iff_ne.mpr hj]

theorem lookup_of_mem [BEq κ] [LawfulBEq κ] {entries : List (κ × β)} {k : κ} {v : β}
    (hnodup : (entries.map Prod.fst).Nodup) (h : (k, v) ∈ entries) : entries.lookup k = some v := by
  induction entries with
  | nil => cases h
  | cons entry rest ih =>
      rw [List.map_cons, List.nodup_cons] at hnodup
      rw [lookup_cons_ite]
      rcases List.mem_cons.mp h with rfl | h
      · exact if_pos rfl
      · rw [if_neg, ih hnodup.2 h]
        rintro rfl
        exact hnodup.1 (List.mem_map.mpr ⟨_, h, rfl⟩)

theorem lookup_setEntry (k : κ) (v : β) (entries : List (κ × β)) (j : κ) :
    (setEntry k v entries).lookup j = if j = k then some v else entries.lookup j := by
  induction entries with
  | nil => rw [setEntry, lookup_cons_ite]
  | cons entry rest ih =>
      obtain ⟨i, w⟩ := entry
      unfold setEntry
      by_cases hik : i = k
      · rw [if_pos hik, lookup_cons_ite, lookup_cons_ite, hik]
        by_cases hjk : j = k
        · rw [if_pos hjk, if_pos hjk]
        · rw [if_neg hjk, if_neg hjk, if_neg hjk]
      · rw [if_neg hik, lookup_cons_ite, lookup_cons_ite, ih]
        by_cases hji : j = i
        · rw [if_pos hji, if_pos hji, if_neg (hji ▸ hik)]
        · rw [if_neg hji, if_neg hji]

theorem get?_set (d : Dict κ β) (k : κ) (v : β) (j : κ) :
    (d.set k v).get? j = if j = k then some v else d.get? j := lookup_setEntry k v d.entries j

/-- `for k, v in pairs: d[k] = v`, from an empty dictionary. -/
def ofPairs (pairs : List (κ × β)) : Dict κ β :=
  pairs.foldl (fun d entry => d.set entry.1 entry.2) empty

/-- The last value wins. -/
theorem get?_ofPairs [BEq κ] [LawfulBEq κ] (pairs : List (κ × β)) (k : κ) :
    (ofPairs pairs).get? k = pairs.reverse.lookup k := by
  induction pairs using List.reverseRecOn with
  | nil => rfl
  | append_singleton pairs entry ih =>
      unfold ofPairs at ih ⊢
      rw [List.foldl_append, List.foldl_cons, List.foldl_nil, get?_set, ih, List.reverse_concat,
        lookup_cons_ite]

/-- What is given later is looked up first. -/
theorem get?_ofPairs_append [BEq κ] [LawfulBEq κ] (pairs later : List (κ × β)) (k : κ) :
    (ofPairs (pairs ++ later)).get? k = ((ofPairs later).get? k).or ((ofPairs pairs).get? k) := by
  rw [get?_ofPairs, get?_ofPairs, get?_ofPairs, List.reverse_append, List.lookup_append]

/-- Every value was given with its key. -/
theorem mem_of_get?_ofPairs [BEq κ] [LawfulBEq κ] {pairs : List (κ × β)} {k : κ} {v : β}
    (h : (ofPairs pairs).get? k = some v) : (k, v) ∈ pairs := by
  rw [get?_ofPairs] at h
  obtain ⟨before, after, hsplit, -⟩ := List.lookup_eq_some_iff.mp h
  rw [← List.mem_reverse, hsplit]
  exact List.mem_append_right _ List.mem_cons_self

theorem setEntry_of_notMem {k : κ} {v : β} {entries : List (κ × β)}
    (h : k ∉ entries.map Prod.fst) : setEntry k v entries = entries ++ [(k, v)] := by
  induction entries with
  | nil => rfl
  | cons entry rest ih =>
      obtain ⟨j, w⟩ := entry
      rw [List.map_cons, List.mem_cons, not_or] at h
      unfold setEntry
      rw [if_neg (Ne.symm h.1), ih h.2, List.cons_append]

/-- Pairs with distinct keys are the entries. -/
theorem ofPairs_entries {pairs : List (κ × β)} (h : (pairs.map Prod.fst).Nodup) :
    (ofPairs pairs).entries = pairs := by
  induction pairs using List.reverseRecOn with
  | nil => rfl
  | append_singleton pairs entry ih =>
      rw [List.map_append, List.nodup_append] at h
      have hpairs : (pairs.foldl (fun d entry => d.set entry.1 entry.2) empty).entries = pairs :=
        ih h.1
      unfold ofPairs
      rw [List.foldl_append, List.foldl_cons, List.foldl_nil]
      show setEntry entry.1 entry.2 _ = _
      rw [hpairs]
      refine setEntry_of_notMem fun hmem => ?_
      exact h.2.2 _ hmem entry.1 (List.mem_singleton.mpr rfl) rfl

theorem mem_setEntry_values {k : κ} {v : β} {entries : List (κ × β)} {w : β}
    (h : w ∈ (setEntry k v entries).map Prod.snd) : w = v ∨ w ∈ entries.map Prod.snd := by
  induction entries with
  | nil => exact .inl (List.mem_singleton.mp h)
  | cons entry rest ih =>
      obtain ⟨j, u⟩ := entry
      unfold setEntry at h
      split at h
      · rcases List.mem_cons.mp h with h | h
        · exact .inl h
        · exact .inr (List.mem_cons_of_mem _ h)
      · rcases List.mem_cons.mp h with h | h
        · exact .inr (h ▸ List.mem_cons_self)
        · exact (ih h).imp_right (List.mem_cons_of_mem _)

/-- Setting adds no value but the one set. -/
theorem mem_set_values {d : Dict κ β} {k : κ} {v w : β} (h : w ∈ (d.set k v).values) :
    w = v ∨ w ∈ d.values := mem_setEntry_values h

/-- A relation that holds between any two values and with the one set holds after. -/
theorem set_pairwise {d : Dict κ β} {k : κ} {v : β} {R : β → β → Prop}
    (h : d.values.Pairwise R) (hv : ∀ w ∈ d.values, R v w ∧ R w v) :
    (d.set k v).values.Pairwise R := by
  obtain ⟨entries, hnodup⟩ := d
  show ((setEntry k v entries).map Prod.snd).Pairwise R
  change (entries.map Prod.snd).Pairwise R at h
  change ∀ w ∈ entries.map Prod.snd, R v w ∧ R w v at hv
  clear hnodup
  induction entries with
  | nil => exact List.pairwise_singleton R v
  | cons entry rest ih =>
      obtain ⟨j, u⟩ := entry
      rw [List.map_cons, List.pairwise_cons] at h
      have hrest : ∀ w ∈ rest.map Prod.snd, R v w ∧ R w v :=
        fun w hw => hv w (List.mem_cons_of_mem _ hw)
      unfold setEntry
      split
      · rw [List.map_cons, List.pairwise_cons]
        exact ⟨fun w hw => (hrest w hw).1, h.2⟩
      · rw [List.map_cons, List.pairwise_cons]
        refine ⟨?_, ih h.2 hrest⟩
        intro w hw
        rcases mem_setEntry_values hw with rfl | hw
        · exact (hv u List.mem_cons_self).2
        · exact h.1 w hw

/-- Setting replaces a value where it stands, or appends the entry. -/
theorem set_entries (d : Dict κ β) (k : κ) (v : β) :
    ((d.set k v).entries.length = d.entries.length ∧ v ∈ (d.set k v).values) ∨
      (d.set k v).entries = d.entries ++ [(k, v)] := by
  obtain ⟨entries, hnodup⟩ := d
  show ((setEntry k v entries).length = entries.length ∧
    v ∈ (setEntry k v entries).map Prod.snd) ∨ setEntry k v entries = entries ++ [(k, v)]
  clear hnodup
  induction entries with
  | nil => exact .inr rfl
  | cons entry rest ih =>
      obtain ⟨j, w⟩ := entry
      unfold setEntry
      split
      · exact .inl ⟨rfl, List.mem_cons_self⟩
      · rcases ih with ⟨hlen, hmem⟩ | happend
        · refine .inl ⟨?_, List.mem_cons_of_mem _ hmem⟩
          rw [List.length_cons, List.length_cons, hlen]
        · refine .inr ?_
          rw [happend, List.cons_append]

end set

/-! ## Mapping -/

def mapValues {γ : Type v} (f : β → γ) (d : Dict κ β) : Dict κ γ where
  entries := d.entries.map fun entry => (entry.1, f entry.2)
  nodup := by
    rw [List.map_map]
    exact d.nodup

theorem get?_mapValues {γ : Type v} [DecidableEq κ] (f : β → γ) (d : Dict κ β) (k : κ) :
    (d.mapValues f).get? k = (d.get? k).map f := by
  obtain ⟨entries, hnodup⟩ := d
  show (entries.map fun entry => (entry.1, f entry.2)).lookup k = (entries.lookup k).map f
  clear hnodup
  induction entries with
  | nil => rfl
  | cons entry rest ih =>
      rw [List.map_cons, lookup_cons_ite, lookup_cons_ite, ih]
      by_cases hk : k = entry.1
      · rw [if_pos hk, if_pos hk]
        rfl
      · rw [if_neg hk, if_neg hk]

/-! ## Trimming -/

/-- `while len(d) > cap: d.popitem(last=False)`. -/
def trimEntries (cap : Nat) : List (κ × β) → List (κ × β)
  | [] => []
  | entry :: rest =>
      if cap < (entry :: rest).length then trimEntries cap rest else entry :: rest

theorem trimEntries_eq (cap : Nat) (entries : List (κ × β)) :
    trimEntries cap entries = entries.rtake cap := by
  induction entries with
  | nil => simp [trimEntries]
  | cons entry rest ih =>
      unfold trimEntries
      split
      · rename_i hlt
        have hstep : (entry :: rest).length - cap = (rest.length - cap) + 1 := by
          rw [List.length_cons] at hlt ⊢
          omega
        rw [ih, List.rtake, List.rtake, hstep, List.drop_succ_cons]
      · rename_i hge
        rw [List.rtake, Nat.sub_eq_zero_of_le (Nat.le_of_not_lt hge), List.drop_zero]

def trim (d : Dict κ β) (cap : Nat) : Dict κ β where
  entries := trimEntries cap d.entries
  nodup := by
    rw [trimEntries_eq]
    exact ((List.drop_sublist _ _).map _).nodup d.nodup

theorem trim_entries (d : Dict κ β) (cap : Nat) :
    (d.trim cap).entries = d.entries.rtake cap := trimEntries_eq cap d.entries

theorem trim_values_suffix (d : Dict κ β) (cap : Nat) : (d.trim cap).values <:+ d.values := by
  rw [values, trim_entries, List.rtake, values, List.map_drop]
  exact List.drop_suffix _ _

theorem length_trim_le (d : Dict κ β) (cap : Nat) : (d.trim cap).entries.length ≤ cap := by
  rw [trim_entries, List.rtake, List.length_drop]
  omega

theorem trim_eq_self {d : Dict κ β} {cap : Nat} (h : d.entries.length ≤ cap) :
    d.trim cap = d := by
  apply ext_entries
  rw [trim_entries, List.rtake, Nat.sub_eq_zero_of_le h, List.drop_zero]

/-- Setting and trimming keeps the value just set. -/
theorem mem_set_trim [DecidableEq κ] {d : Dict κ β} {cap : Nat} (h : d.entries.length ≤ cap)
    (hcap : 0 < cap) (k : κ) (v : β) : v ∈ ((d.set k v).trim cap).values := by
  rcases set_entries d k v with ⟨hlen, hmem⟩ | happend
  · rw [trim_eq_self (hlen ▸ h)]
    exact hmem
  · obtain ⟨n, rfl⟩ : ∃ n, cap = n + 1 := ⟨cap - 1, by omega⟩
    rw [values, trim_entries, happend, List.rtake_concat_succ, List.map_append]
    exact List.mem_append_right _ List.mem_cons_self

end Dict

end SrxProbe.Lib
