import SrxProbe.PingApp.Series

/-!
# What the monitor still holds

Samples of all kinds, as they come in. Of each kind the monitor holds the current bucket
and the last ones that were closed, so it accounts for the last runs of its samples.
-/

namespace SrxProbe.PingApp

open SrxProbe.Lib

variable {ν : Type} {cfg : Settings} {kind : Kind}

/-- Calls of `add_to_bucket` for any kinds, one after the other, `none` if one of them
raises. -/
def State.addEach (ops : Arith ν) (s : State cfg ν) (calls : List (Kind × Reading ν)) :
    Option (State cfg ν) :=
  calls.foldlM (fun s c => s.addToBucket ops c.1 c.2.ts c.2.rtt) s

/-- The calls for one kind. -/
def ofKind (kind : Kind) (calls : List (Kind × Reading ν)) : List (Reading ν) :=
  (calls.filter fun c => c.1 = kind).map Prod.snd

/-- The runs that the monitor still holds: the current one and the last `BUCKETS` before. -/
def heldRuns (cfg : Settings) (calls : List (Reading ν)) : List (List (Reading ν)) :=
  (runs cfg calls).rtake (cfg.capacity + 1)

section tracks

variable {calls : List (Reading Rat)} {s s' : State cfg Rat} {c : Kind × Reading Rat}

theorem addToBucket_other {ops : Arith ν} {s s' : State cfg ν} {other : Kind} {ts : Time}
    {rtt : Option ν} (hadd : s.addToBucket ops other ts rtt = some s') (hne : kind ≠ other) :
    s'.buckets kind = s.buckets kind ∧ s'.cur kind = s.cur kind := by
  obtain ⟨bid, -, h⟩ := Option.bind_eq_some_iff.mp hadd
  cases h
  exact ⟨update_of_ne _ _ hne, update_of_ne _ _ hne⟩

/-- A call for one kind joins the calls of that kind. -/
theorem Tracks.step {before : List (Kind × Reading Rat)}
    (h : Tracks kind (ofKind kind before) s)
    (hadd : s.addToBucket exact.toArith c.1 c.2.ts c.2.rtt = some s') :
    Tracks kind (ofKind kind (before ++ [c])) s' := by
  rw [ofKind, List.filter_append, List.map_append]
  by_cases hkind : c.1 = kind
  · rw [List.filter_cons_of_pos (by simp [hkind])]
    rw [hkind] at hadd
    exact h.addToBucket hadd
  · rw [List.filter_cons_of_neg (by simp [hkind])]
    obtain ⟨hbuckets, hcur⟩ : s'.buckets kind = s.buckets kind ∧ s'.cur kind = s.cur kind :=
      addToBucket_other hadd (Ne.symm hkind)
    rw [List.filter_nil, List.map_nil, List.append_nil]
    unfold Tracks
    rw [hbuckets, hcur]
    exact h

theorem Tracks.addEach {before calls : List (Kind × Reading Rat)}
    (h : Tracks kind (ofKind kind before) s)
    (hadd : s.addEach exact.toArith calls = some s') :
    Tracks kind (ofKind kind (before ++ calls)) s' := by
  induction calls generalizing before s with
  | nil =>
      cases hadd
      rwa [List.append_nil]
  | cons c calls ih =>
      rw [State.addEach, List.foldlM_cons] at hadd
      obtain ⟨t, ht, hrest⟩ := Option.bind_eq_some_iff.mp hadd
      have hrec := ih (h.step ht) hrest
      rwa [List.append_assoc] at hrec

/-- The buckets of a kind account for the runs that are held. -/
theorem Tracks.held (h : Tracks kind calls s) :
    List.Forall₂ (Accounts cfg) (s.all kind) (heldRuns cfg calls) := by
  obtain ⟨closed, hholds, hempty, hruns⟩ := h
  have hall : s.all kind = (closed ++ (s.cur kind).toList).rtake (cfg.capacity + 1) := by
    rw [State.all, hholds]
    cases hcur : s.cur kind with
    | some b => exact (List.rtake_concat_succ _ _ b).symm
    | none =>
        -- no sample, hence no bucket
        rw [hempty hcur, hcur, Option.toList_none, List.append_nil] at hruns
        rw [List.forall₂_nil_right_iff.mp hruns]
        simp
  rw [hall, heldRuns, List.rtake, List.rtake, hruns.length_eq]
  exact List.forall₂_drop _ hruns

/-- After samples from the start on. -/
theorem held_addEach {start : Time} {calls : List (Kind × Reading Rat)}
    (hadd : (State.start cfg Rat start).addEach exact.toArith calls = some s) (kind : Kind) :
    List.Forall₂ (Accounts cfg) (s.all kind) (heldRuns cfg (ofKind kind calls)) := by
  have hstart : Tracks kind (ofKind kind []) (State.start cfg Rat start) := Tracks.start start
  exact (hstart.addEach hadd).held

end tracks

end SrxProbe.PingApp
