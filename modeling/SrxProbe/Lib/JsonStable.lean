import SrxProbe.Lib.JsonRoundTrip

/-!
# What is read can be printed

Whatever `json.loads` accepts prints as a text that it reads as the same value, so that
reading and printing change nothing after the first round.
-/

namespace SrxProbe.Lib

/-! ## Short numbers -/

theorem digitValue_lt {c : Char} {d : Nat} (h : digitValue c = some d) : d < 10 := by
  obtain ⟨first, -, hfirst⟩ := List.exists_of_findSome?_eq_some h
  split at hfirst
  · cases hfirst
    omega
  · cases hfirst

theorem digits_of_intDigits {s : PyStr} {ds : List Nat} (h : intDigits s = some ds) :
    ds ≠ [] ∧ ∀ d ∈ ds, d < 10 := by
  fun_induction intDigits s generalizing ds with
  | case1 => cases h
  | case2 c =>
      obtain ⟨d, hd, rfl⟩ := Option.map_eq_some_iff.mp h
      simpa using digitValue_lt hd
  | case3 c rest ih =>
      obtain ⟨d, hd, h⟩ := Option.bind_eq_some_iff.mp h
      obtain ⟨rest', hrest, h⟩ := Option.bind_eq_some_iff.mp h
      cases h
      simpa using ⟨digitValue_lt hd, (ih hrest).2⟩
  | case4 c rest _ _ ih =>
      obtain ⟨d, hd, h⟩ := Option.bind_eq_some_iff.mp h
      obtain ⟨rest', hrest, h⟩ := Option.bind_eq_some_iff.mp h
      cases h
      simpa using ⟨digitValue_lt hd, (ih hrest).2⟩

theorem foldl_digits_lt {ds : List Nat} (h : ∀ d ∈ ds, d < 10) (n : Nat) :
    ds.foldl (fun n d => 10 * n + d) n < (n + 1) * 10 ^ ds.length := by
  induction ds generalizing n with
  | nil => simp
  | cons d ds ih =>
      have hd := h d List.mem_cons_self
      have hrest := ih (fun x hx => h x (List.mem_cons_of_mem d hx)) (10 * n + d)
      have hle : (10 * n + d + 1) * 10 ^ ds.length ≤ (n + 1) * 10 * 10 ^ ds.length :=
        Nat.mul_le_mul_right _ (by omega)
      rw [List.foldl_cons, List.length_cons, Nat.pow_succ']
      calc _ < _ := hrest
        _ ≤ _ := hle
        _ = _ := Nat.mul_assoc _ _ _

/-- An integer that `int` converts is written with no more digits than it converts. -/
theorem length_digits_of_parseInt {s : PyStr} {n : Int} (h : parseInt s = some n) :
    (Nat.toDigits 10 n.natAbs).length ≤ maxStrDigits := by
  have hunsigned : ∀ (digits : PyStr) (m : Nat), intUnsigned digits = some m →
      (Nat.toDigits 10 m).length ≤ maxStrDigits := by
    intro digits m hm
    obtain ⟨ds, hds, hm⟩ := Option.bind_eq_some_iff.mp hm
    obtain ⟨hne, hlt⟩ := digits_of_intDigits hds
    split at hm
    · rename_i hlen
      cases hm
      have hvalue := foldl_digits_lt hlt 0
      rw [Nat.zero_add, Nat.one_mul] at hvalue
      exact (length_toDigits_of_lt hvalue (List.length_pos_of_ne_nil hne)).trans hlen
    · cases hm
  unfold parseInt at h
  dsimp only at h
  split at h
  all_goals
    obtain ⟨m, hm, rfl⟩ := Option.map_eq_some_iff.mp h
    obtain ⟨k, hk, hm⟩ := Option.bind_eq_some_iff.mp hm
    cases hm
    simpa using hunsigned _ k hk

/-! ## Entries -/

namespace Dict

universe u v

variable {κ : Type u} {β : Type v} [DecidableEq κ]

theorem mem_of_mem_ofPairs {pairs : List (κ × β)} {entry : κ × β}
    (h : entry ∈ (ofPairs pairs).entries) : entry ∈ pairs :=
  mem_of_get?_ofPairs (lookup_of_mem (ofPairs pairs).nodup h)

end Dict

namespace Json

/-! ## Values that are read -/

/-- What `repr(float(text))` is known to be: a text that JSON reads as this same float. -/
structure FloatRepr (floatRepr : PyStr → PyStr) : Prop where
  reads : ∀ text, readAtom floatRepr (floatText (floatRepr text)) =
    .ok (.float (floatRepr text), [])

section

variable {floatRepr : PyStr → PyStr} {α : Type} {item : Reader α} {close : Char} {P : α → Prop}

theorem forall_readItems (hitem : ∀ {s rest x}, item s = .ok (x, rest) → P x) {turns : Nat}
    {s rest : PyStr} {xs : List α} (h : readItems item close turns s = .ok (xs, rest)) :
    ∀ x ∈ xs, P x := by
  induction turns generalizing s xs with
  | zero => cases h
  | succ turns ih =>
      obtain ⟨⟨x, tail⟩, hx, h⟩ := bind_ok_iff.mp h
      dsimp only at h
      split at h
      · cases h
      · split at h
        · cases h
          intro y hy
          rw [List.mem_singleton.mp hy]
          exact hitem hx
        · split at h
          · obtain ⟨⟨xs', tail'⟩, hxs, h⟩ := bind_ok_iff.mp h
            cases h
            intro y hy
            rcases List.mem_cons.mp hy with rfl | hy
            · exact hitem hx
            · exact ih hxs y hy
          · cases h

theorem forall_readBlock (hitem : ∀ {s rest x}, item s = .ok (x, rest) → P x)
    {s rest : PyStr} {xs : List α} (h : readBlock item close s = .ok (xs, rest)) :
    ∀ x ∈ xs, P x := by
  unfold readBlock at h
  split at h
  · cases h
  · split at h
    · cases h
      intro x hx
      cases hx
    · exact forall_readItems hitem h

/-- The value of an entry is one that is read. -/
theorem readEntry_ok {value : Reader PyValue} {P : PyValue → Prop}
    (hvalue : ∀ {s rest v}, value s = .ok (v, rest) → P v) {s rest : PyStr}
    {entry : PyStr × PyValue} (h : readEntry value s = .ok (entry, rest)) : P entry.2 := by
  unfold readEntry at h
  split at h
  · obtain ⟨⟨key, tail⟩, -, h⟩ := bind_ok_iff.mp h
    dsimp only at h
    split at h
    · obtain ⟨⟨v, tail'⟩, hv, h⟩ := bind_ok_iff.mp h
      cases h
      exact hvalue hv
    · cases h
  · cases h

theorem eq_of_readConstant {letters s rest : PyStr} {value v : PyValue}
    (h : readConstant letters value s = .ok (v, rest)) : v = value := by
  unfold readConstant at h
  split at h
  · cases h
    rfl
  · cases h

theorem prints_of_readAtom (hfloat : FloatRepr floatRepr) {s rest : PyStr} {v : PyValue}
    (h : readAtom floatRepr s = .ok (v, rest)) (depth : Nat) : Prints floatRepr depth v := by
  cases s with
  | nil => cases h
  | cons c s =>
      simp only [readAtom] at h
      split at h
      · obtain ⟨⟨text, tail⟩, -, h⟩ := map_ok_iff.mp h
        cases h
        exact .str depth text
      · split at h
        · rw [eq_of_readConstant h]
          exact .none depth
        · split at h
          · rw [eq_of_readConstant h]
            exact .bool depth true
          · split at h
            · rw [eq_of_readConstant h]
              exact .bool depth false
            · split at h
              · rw [eq_of_readConstant h]
                exact .float depth _ rfl
              · split at h
                · rw [eq_of_readConstant h]
                  exact .float depth _ rfl
                · split at h
                  · rw [eq_of_readConstant h]
                    exact .float depth _ rfl
                  · obtain ⟨⟨m, tail⟩, -, h⟩ := bind_ok_iff.mp h
                    obtain ⟨value, hvalue, h⟩ := bind_ok_iff.mp h
                    cases h
                    unfold NumberMatch.value at hvalue
                    split at hvalue
                    · cases hvalue
                      exact .float depth _ (hfloat.reads _)
                    · obtain ⟨n, hn, hvalue⟩ := map_ok_iff.mp hvalue
                      cases hvalue
                      exact .int depth n (length_digits_of_parseInt (orRaise_ok_iff.mp hn))

/-- A value that is read can be printed, at the depth it is read at. -/
theorem prints_of_readValue (hfloat : FloatRepr floatRepr) {depth : Nat} {s rest : PyStr}
    {v : PyValue} (h : readValue floatRepr depth s = .ok (v, rest)) :
    Prints floatRepr depth v := by
  induction depth generalizing s rest v with
  | zero =>
      cases s with
      | nil => cases h
      | cons c s =>
          simp only [readValue] at h
          split at h
          · cases h
          · exact prints_of_readAtom hfloat h 0
  | succ depth ih =>
      cases s with
      | nil => cases h
      | cons c s =>
          simp only [readValue] at h
          split at h
          · obtain ⟨⟨items, tail⟩, hitems, h⟩ := map_ok_iff.mp h
            cases h
            exact .list depth items (forall_readBlock ih hitems)
          · split at h
            · obtain ⟨⟨pairs, tail⟩, hpairs, h⟩ := map_ok_iff.mp h
              cases h
              have hall := forall_readBlock (P := fun entry => Prints floatRepr depth entry.2)
                (readEntry_ok ih) hpairs
              exact .dict depth _ (Dict.ofPairs pairs).nodup
                fun entry hentry => hall entry (Dict.mem_of_mem_ofPairs hentry)
            · exact prints_of_readAtom hfloat h _

/-- **Whatever is read can be printed**, and is read back as it is. -/
theorem prints_of_loads (hfloat : FloatRepr floatRepr) {limit : Nat} {s : PyStr} {v : PyValue}
    (h : loads floatRepr limit s = .ok v) : Prints floatRepr limit v := by
  obtain ⟨⟨value, rest⟩, hread, h⟩ := bind_ok_iff.mp h
  dsimp only at h
  split at h
  · cases h
    exact prints_of_readValue hfloat hread
  · cases h

end

end Json

end SrxProbe.Lib
