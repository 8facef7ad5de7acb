import SrxProbe.Lib.JsonValue

/-!
# Reading JSON is local

What a reader makes of a text does not change when more text follows, unless the text
ends in a number, which may go on. A list or an object ends with its own bracket.
-/

namespace SrxProbe.Lib.Json

/-- A character that a number may go on with. -/
def isNumberChar (c : Char) : Bool :=
  IpAddress.isAsciiDigit c || c = '.' || c = 'e' || c = 'E' || c = '+' || c = '-'

/-- No number goes on here. -/
def Stops (s : PyStr) : Prop := ∀ c, s.head? = some c → isNumberChar c = false

theorem Stops.nil : Stops [] := by
  intro c h
  cases h

theorem Stops.cons {c : Char} (h : isNumberChar c = false) (s : PyStr) : Stops (c :: s) := by
  intro d hd
  cases hd
  exact h

/-- A reader does not look behind what it has read, but for the rest of a number. -/
structure Local {α : Type} (read : Reader α) : Prop where
  ok : ∀ {s rest u : PyStr} {v : α}, read s = .ok (v, rest) → Stops (rest ++ u) →
    read (s ++ u) = .ok (v, rest ++ u)
  deep : ∀ {s u : PyStr}, read s = .error recursionError → read (s ++ u) = .error recursionError

/-- A reader does not look behind what it has read. -/
structure Closed {α : Type} (read : Reader α) : Prop where
  ok : ∀ {s rest u : PyStr} {v : α}, read s = .ok (v, rest) → read (s ++ u) = .ok (v, rest ++ u)
  deep : ∀ {s u : PyStr}, read s = .error recursionError → read (s ++ u) = .error recursionError

theorem Closed.map {α β : Type} {read : Reader α} (h : Closed read) (f : α → β) :
    Closed (fun s => (read s).map fun p => (f p.1, p.2)) where
  ok := by
    intro s rest u v hs
    cases hread : read s with
    | error e =>
        rw [hread] at hs
        cases hs
    | ok p =>
        rw [hread] at hs
        cases hs
        rw [h.ok hread]
        rfl
  deep := by
    intro s u hs
    cases hread : read s with
    | error e =>
        rw [hread] at hs
        cases hs
        rw [h.deep hread]
        rfl
    | ok p =>
        rw [hread] at hs
        cases hs

theorem skipWs_append {s rest : PyStr} {c : Char} (h : skipWs s = c :: rest) (u : PyStr) :
    skipWs (s ++ u) = c :: (rest ++ u) := by
  unfold skipWs at h ⊢
  rw [List.dropWhile_append, h]
  rfl

theorem skipWs_cons {c : Char} (h : isWs c = false) (s : PyStr) : skipWs (c :: s) = c :: s := by
  unfold skipWs
  rw [List.dropWhile_cons_of_neg (by rw [h]; exact Bool.false_ne_true)]

/-- What space is skipped before a character that is none. -/
theorem stops_of_skipWs {s rest : PyStr} {c : Char} (h : skipWs s = c :: rest)
    (hc : isNumberChar c = false) : Stops s := by
  intro d hd
  cases s with
  | nil => cases hd
  | cons e s =>
      obtain rfl : e = d := Option.some.inj hd
      by_cases he : isWs e = true
      · simp only [isWs, Bool.or_eq_true, decide_eq_true_eq] at he
        rcases he with ((rfl | rfl) | rfl) | rfl
        all_goals decide
      · unfold skipWs at h
        rw [List.dropWhile_cons_of_neg he] at h
        cases h
        exact hc

theorem spanString_append {s body rest : PyStr} (h : spanString s = some (body, rest))
    (u : PyStr) : spanString (s ++ u) = some (body, rest ++ u) := by
  fun_induction spanString s generalizing body with
  | case1 => cases h
  | case2 rest' =>
      cases h
      rfl
  | case3 c rest' ih =>
      obtain ⟨⟨body', rest''⟩, hspan, heq⟩ := Option.map_eq_some_iff.mp h
      cases heq
      show (spanString (rest' ++ u)).map _ = _
      rw [ih hspan]
      rfl
  | case4 c rest' hquote hslash ih =>
      obtain ⟨⟨body', rest''⟩, hspan, heq⟩ := Option.map_eq_some_iff.mp h
      cases heq
      rw [List.cons_append, spanString, ih hspan]
      · rfl
      · exact hquote
      · intro d rest'' hc hrest
        subst hc
        cases rest' with
        | nil => cases hspan
        | cons e rest' => exact hslash e rest' rfl rfl

/-! ### Numbers -/

/-- Digits end before a character that is none. -/
def DigitsEnd (s : PyStr) : Prop := ∀ c, s.head? = some c → IpAddress.isAsciiDigit c = false

theorem Stops.digitsEnd {s : PyStr} (h : Stops s) : DigitsEnd s := by
  intro c hc
  have hstop := h c hc
  simp only [isNumberChar, Bool.or_eq_false_iff] at hstop
  exact hstop.1.1.1.1.1

theorem spanDigits_append {s : PyStr} (u : PyStr) (h : DigitsEnd ((spanDigits s).2 ++ u)) :
    spanDigits (s ++ u) = ((spanDigits s).1, (spanDigits s).2 ++ u) := by
  unfold spanDigits at h ⊢
  dsimp only at h ⊢
  induction s with
  | nil =>
      cases u with
      | nil => rfl
      | cons c u =>
          have hc := h c rfl
          simp [hc]
  | cons d s ih =>
      by_cases hd : IpAddress.isAsciiDigit d = true
      · rw [List.dropWhile_cons_of_pos hd] at h
        have hrec := ih h
        rw [Prod.mk.injEq] at hrec
        simp [hd, hrec.1, hrec.2]
      · simp [hd]

theorem spanWhole_append {s whole rest u : PyStr} (h : spanWhole s = some (whole, rest))
    (hend : DigitsEnd (rest ++ u)) : spanWhole (s ++ u) = some (whole, rest ++ u) := by
  cases s with
  | nil => cases h
  | cons c s =>
      unfold spanWhole at h ⊢
      rw [List.cons_append]
      dsimp only at h ⊢
      split at h
      · rename_i hzero
        cases h
        rw [if_pos hzero]
      · rename_i hzero
        rw [if_neg hzero]
        split at h
        · rename_i hdigit
          cases h
          rw [if_pos hdigit, spanDigits_append u hend]
        · cases h

theorem spanFraction_append {s : PyStr} (u : PyStr) (h : DigitsEnd ((spanFraction s).2 ++ u))
    (hdot : ((spanFraction s).2 ++ u).head? ≠ some '.') :
    spanFraction (s ++ u) = ((spanFraction s).1, (spanFraction s).2 ++ u) := by
  cases s with
  | nil =>
      cases u with
      | nil => rfl
      | cons c u =>
          have hc : ¬ (c = '.' ∧ (spanDigits u).1 ≠ []) := fun hc => hdot (congrArg some hc.1)
          exact if_neg hc
  | cons c s =>
      unfold spanFraction at h hdot ⊢
      dsimp only [List.cons_append] at h hdot ⊢
      split at h
      · rename_i hfraction
        rw [spanDigits_append u h, if_pos hfraction, if_pos hfraction]
      · rename_i hno
        rw [if_neg hno] at hdot
        have hc : c ≠ '.' := fun hc => hdot (congrArg some hc)
        rw [if_neg fun hyes => hc hyes.1, if_neg hno]
        rfl

theorem spanSign_append {s : PyStr} (u : PyStr) (h : (spanDigits (spanSign s).2).1 ≠ []) :
    spanSign (s ++ u) = ((spanSign s).1, (spanSign s).2 ++ u) := by
  cases s with
  | nil => exact absurd rfl h
  | cons c s =>
      unfold spanSign
      dsimp only [List.cons_append]
      split
      · rfl
      · rfl

theorem spanExponent_append {s : PyStr} (u : PyStr) (h : Stops ((spanExponent s).2 ++ u)) :
    spanExponent (s ++ u) = ((spanExponent s).1, (spanExponent s).2 ++ u) := by
  -- a letter that a number goes on with does not stop it
  have hletter : ∀ c rest, Stops (c :: rest) → ¬ (c = 'e' ∨ c = 'E') := by
    intro c rest hstop hc
    have hnot := hstop c rfl
    rcases hc with rfl | rfl
    all_goals cases hnot
  cases s with
  | nil =>
      cases u with
      | nil => rfl
      | cons c u =>
          exact if_neg fun hyes => hletter c u h hyes.1
  | cons c s =>
      unfold spanExponent at h ⊢
      dsimp only [List.cons_append] at h ⊢
      split at h
      · rename_i hexp
        rw [spanSign_append u hexp.2]
        dsimp only
        rw [spanDigits_append u h.digitsEnd, if_pos hexp, if_pos hexp]
      · rename_i hno
        rw [if_neg fun hyes => hletter c (s ++ u) h hyes.1, if_neg hno]
        rfl

/-- A text that has an exponent at its front begins with a letter. -/
theorem spanExponent_cases (s : PyStr) :
    spanExponent s = ([], s) ∨ s.head? = some 'e' ∨ s.head? = some 'E' := by
  cases s with
  | nil => exact .inl rfl
  | cons c s =>
      unfold spanExponent
      dsimp only
      split
      · rename_i hexp
        rcases hexp.1 with rfl | rfl
        · exact .inr (.inl rfl)
        · exact .inr (.inr rfl)
      · exact .inl rfl

theorem spanFraction_cases (s : PyStr) : spanFraction s = ([], s) ∨ s.head? = some '.' := by
  cases s with
  | nil => exact .inl rfl
  | cons c s =>
      unfold spanFraction
      dsimp only
      split
      · rename_i hfraction
        exact .inr (congrArg some hfraction.1)
      · exact .inl rfl

theorem matchNumber_append {s rest u : PyStr} {m : NumberMatch}
    (h : matchNumber s = some (m, rest)) (hstop : Stops (rest ++ u)) :
    matchNumber (s ++ u) = some (m, rest ++ u) := by
  unfold matchNumber at h
  obtain ⟨⟨whole, tail⟩, hwhole, heq⟩ := Option.map_eq_some_iff.mp h
  cases heq
  -- what follows each part begins with a character that does not belong to it
  have hexponent := spanExponent_append u hstop
  have hfraction : ∀ c, ((spanFraction tail).2 ++ u).head? = some c →
      IpAddress.isAsciiDigit c = false ∧ c ≠ '.' := by
    intro c hc
    rcases spanExponent_cases (spanFraction tail).2 with hnone | hletter
    · rw [hnone] at hstop
      have hnot := hstop c hc
      refine ⟨hstop.digitsEnd c hc, ?_⟩
      rintro rfl
      cases hnot
    · cases htail : (spanFraction tail).2 with
      | nil =>
          rw [htail] at hletter
          rcases hletter with hletter | hletter
          all_goals cases hletter
      | cons d rest =>
          rw [htail] at hletter hc
          obtain rfl : d = c := Option.some.inj hc
          rcases hletter with hletter | hletter
          all_goals
            obtain rfl := Option.some.inj hletter
            decide
  have hfraction' := spanFraction_append u (fun c hc => (hfraction c hc).1)
    (fun hdot => (hfraction '.' hdot).2 rfl)
  have hwhole' : DigitsEnd (tail ++ u) := by
    intro c hc
    rcases spanFraction_cases tail with hnone | hdot
    · rw [hnone] at hfraction
      exact (hfraction c hc).1
    · cases tail with
      | nil => cases hdot
      | cons d rest =>
          obtain rfl : d = c := Option.some.inj hc
          obtain rfl := Option.some.inj hdot
          decide
  have hne : s ≠ [] := by
    rintro rfl
    cases hwhole
  have hhead : (s ++ u).head? = s.head? := List.head?_append_of_ne_nil _ hne
  have hlen : (if s.head? = some '-' then ['-'] else ([] : PyStr)).length ≤ s.length := by
    have := List.length_pos_of_ne_nil hne
    split
    · exact this
    · exact Nat.zero_le _
  unfold matchNumber
  dsimp only
  rw [hhead, List.drop_append_of_le_length hlen, spanWhole_append hwhole hwhole']
  dsimp only [Option.map_some]
  rw [hfraction', hexponent]

theorem NumberMatch.only_value (floatRepr : PyStr → PyStr) (m : NumberMatch) :
    OnlyRaises (· = decodeError) (m.value floatRepr) := by
  unfold NumberMatch.value
  split
  · exact .ok _
  · cases parseInt m.integer with
    | none => exact .error rfl
    | some n => exact .ok _

section

variable (floatRepr : PyStr → PyStr)

/-- A reader that fails in one way only is local as soon as its values are. -/
theorem Local.of_only {α : Type} {read : Reader α}
    (hok : ∀ {s rest u : PyStr} {v : α}, read s = .ok (v, rest) → Stops (rest ++ u) →
      read (s ++ u) = .ok (v, rest ++ u))
    (honly : ∀ s, OnlyRaises (· = decodeError) (read s)) : Local read where
  ok := hok
  deep := by
    intro s u hs
    cases honly s _ hs

theorem only_readNumber (s : PyStr) : OnlyRaises (· = decodeError) (readNumber floatRepr s) :=
  OnlyRaises.bind (OnlyRaises.orRaise rfl) fun p _ =>
    OnlyRaises.bind (p.1.only_value floatRepr) fun _ _ => .ok _

theorem local_readNumber : Local (readNumber floatRepr) := by
  refine .of_only ?_ ?_
  · intro s rest u v hs hstop
    obtain ⟨⟨m, tail⟩, hmatch, hs⟩ := bind_ok_iff.mp hs
    obtain ⟨value, hvalue, hs⟩ := bind_ok_iff.mp hs
    cases hs
    refine bind_ok_iff.mpr ⟨(m, rest ++ u), ?_, bind_ok_iff.mpr ⟨v, hvalue, rfl⟩⟩
    exact orRaise_ok_iff.mpr (matchNumber_append (orRaise_ok_iff.mp hmatch) hstop)
  · exact only_readNumber floatRepr

theorem only_readString (s : PyStr) : OnlyRaises (· = decodeError) (readString s) :=
  OnlyRaises.bind (OnlyRaises.orRaise rfl) fun _ _ =>
    OnlyRaises.bind (OnlyRaises.orRaise rfl) fun _ _ => .ok _

theorem closed_readString : Closed readString where
  ok := by
    intro s rest u text hs
    obtain ⟨⟨body, tail⟩, hspan, hs⟩ := bind_ok_iff.mp hs
    obtain ⟨text', htext, hs⟩ := bind_ok_iff.mp hs
    cases hs
    refine bind_ok_iff.mpr ⟨(body, rest ++ u), ?_, bind_ok_iff.mpr ⟨text, htext, rfl⟩⟩
    exact orRaise_ok_iff.mpr (spanString_append (orRaise_ok_iff.mp hspan) u)
  deep := by
    intro s u hs
    cases only_readString s _ hs

theorem only_readConstant (letters : PyStr) (value : PyValue) (s : PyStr) :
    OnlyRaises (· = decodeError) (readConstant letters value s) := by
  unfold readConstant
  split
  · exact .ok _
  · exact .error rfl

theorem closed_readConstant (letters : PyStr) (value : PyValue) :
    Closed (readConstant letters value) where
  ok := by
    intro s rest u v hs
    unfold readConstant at hs ⊢
    split at hs
    · rename_i hprefix
      cases hs
      obtain ⟨tail, rfl⟩ := List.isPrefixOf_iff_prefix.mp hprefix
      rw [List.append_assoc, if_pos (List.isPrefixOf_iff_prefix.mpr ⟨_, rfl⟩), List.drop_left,
        List.drop_left]
    · cases hs
  deep := by
    intro s u hs
    cases only_readConstant letters value s _ hs

theorem only_readAtom (s : PyStr) : OnlyRaises (· = decodeError) (readAtom floatRepr s) := by
  cases s with
  | nil => exact .error rfl
  | cons c s =>
      unfold readAtom
      dsimp only
      split_ifs
      · intro e he
        cases hread : readString s with
        | error e' =>
            rw [hread] at he
            cases he
            exact only_readString s _ hread
        | ok p =>
            rw [hread] at he
            cases he
      all_goals first | exact only_readConstant _ _ _ | exact only_readNumber floatRepr _

theorem local_readAtom : Local (readAtom floatRepr) := by
  have hnumber := local_readNumber floatRepr
  refine .of_only ?_ (only_readAtom floatRepr)
  intro s rest u v hs hstop
  cases s with
  | nil => cases hs
  | cons c s =>
      -- a minus sign by itself is no number
      have hminus : c = '-' → s.head? ≠ some 'I' → readNumber floatRepr (c :: s) = .ok (v, rest) →
          (s ++ u).head? ≠ some 'I' := by
        rintro rfl hI hread
        cases s with
        | nil => cases hread
        | cons d s => exact hI
      have hhead : s.head? = some 'I' → (s ++ u).head? = some 'I' := by
        intro hI
        rw [List.head?_append, hI]
        rfl
      unfold readAtom at hs ⊢
      dsimp only [List.cons_append] at hs ⊢
      split at hs
      · rename_i heq
        rw [if_pos heq]
        exact (closed_readString.map PyValue.str).ok hs
      rename_i hq
      rw [if_neg hq]
      split at hs
      · rename_i heq
        rw [if_pos heq]
        exact (closed_readConstant _ _).ok hs
      rename_i hn
      rw [if_neg hn]
      split at hs
      · rename_i heq
        rw [if_pos heq]
        exact (closed_readConstant _ _).ok hs
      rename_i ht
      rw [if_neg ht]
      split at hs
      · rename_i heq
        rw [if_pos heq]
        exact (closed_readConstant _ _).ok hs
      rename_i hf
      rw [if_neg hf]
      split at hs
      · rename_i heq
        rw [if_pos heq]
        exact (closed_readConstant _ _).ok hs
      rename_i hN
      rw [if_neg hN]
      split at hs
      · rename_i heq
        rw [if_pos heq]
        exact (closed_readConstant _ _).ok hs
      rename_i hI
      rw [if_neg hI]
      split at hs
      · rename_i heq
        rw [if_pos ⟨heq.1, hhead heq.2⟩]
        exact (closed_readConstant _ _).ok hs
      · rename_i hno
        rw [if_neg]
        · exact hnumber.ok hs hstop
        · rintro ⟨hc, hu⟩
          exact hminus hc (fun h => hno ⟨hc, h⟩) hs hu

/-! ### Lists and objects -/

/-- A value ends at white space, a comma and a closing bracket. -/
theorem Local.then_skip {α : Type} {read : Reader α} (h : Local read) {s rest tail : PyStr}
    {v : α} {c : Char} (hs : read s = .ok (v, rest)) (hrest : skipWs rest = c :: tail)
    (hc : isNumberChar c = false) (u : PyStr) : read (s ++ u) = .ok (v, rest ++ u) :=
  h.ok hs (stops_of_skipWs (skipWs_append hrest u) hc)

/-- Reading goes on behind white space unless the text ends there. -/
theorem skipWs_cases (s u : PyStr) : skipWs s = [] ∨ skipWs (s ++ u) = skipWs s ++ u := by
  cases hskip : skipWs s with
  | nil => exact .inl rfl
  | cons c rest => exact .inr (skipWs_append hskip u)

section

variable {α : Type} {item : Reader α} {close : Char}

theorem readItems_ok (h : Local item) (hempty : item [] = .error decodeError)
    (hclose : isNumberChar close = false) {n m : Nat} (hle : n ≤ m) {s rest : PyStr} {xs : List α}
    (hs : readItems item close n s = .ok (xs, rest)) (u : PyStr) :
    readItems item close m (s ++ u) = .ok (xs, rest ++ u) := by
  induction n generalizing m s xs with
  | zero => cases hs
  | succ n ih =>
      obtain ⟨m, rfl⟩ := Nat.exists_eq_succ_of_ne_zero (n := m) (by omega)
      obtain ⟨⟨x, tail⟩, hitem, hs⟩ := bind_ok_iff.mp hs
      dsimp only at hs
      split at hs
      · cases hs
      rename_i c tail' hskip
      refine bind_ok_iff.mpr ⟨(x, tail ++ u), ?_, ?_⟩
      · refine h.then_skip hitem hskip ?_ u
        split at hs
        · rename_i heq
          exact heq ▸ hclose
        · split at hs
          · rename_i hcomma
            rw [hcomma]
            rfl
          · cases hs
      · dsimp only
        rw [skipWs_append hskip]
        dsimp only
        split at hs
        · rename_i heq
          cases hs
          rw [if_pos heq]
        · rename_i hne
          rw [if_neg hne]
          split at hs
          · rename_i hcomma
            rw [if_pos hcomma]
            obtain ⟨⟨xs', tail''⟩, hitems, hs⟩ := bind_ok_iff.mp hs
            cases hs
            rcases skipWs_cases tail' u with hnil | hmore
            · rw [hnil] at hitems
              cases n with
              | zero => cases hitems
              | succ n =>
                  obtain ⟨p, hp, -⟩ := bind_ok_iff.mp hitems
                  rw [hempty] at hp
                  cases hp
            · rw [hmore]
              exact bind_ok_iff.mpr ⟨_, ih (by omega) hitems, rfl⟩
          · cases hs

theorem readItems_deep (h : Local item) (hempty : item [] = .error decodeError) {n m : Nat}
    (hle : n ≤ m) {s : PyStr}
    (hs : readItems item close n s = .error recursionError) (u : PyStr) :
    readItems item close m (s ++ u) = .error recursionError := by
  induction n generalizing m s with
  | zero => cases hs
  | succ n ih =>
      obtain ⟨m, rfl⟩ := Nat.exists_eq_succ_of_ne_zero (n := m) (by omega)
      rcases bind_error_iff.mp hs with hs | ⟨⟨x, tail⟩, hitem, hs⟩
      · exact bind_error_iff.mpr (.inl (h.deep hs))
      dsimp only at hs
      split at hs
      · cases hs
      rename_i c tail' hskip
      split at hs
      · cases hs
      rename_i hne
      split at hs
      · rename_i hcomma
        have hstop : isNumberChar c = false := by
          rw [hcomma]
          rfl
        refine bind_error_iff.mpr (.inr ⟨(x, tail ++ u), h.then_skip hitem hskip hstop u, ?_⟩)
        dsimp only
        rw [skipWs_append hskip]
        dsimp only
        rw [if_neg hne, if_pos hcomma]
        rcases bind_error_iff.mp hs with hitems | ⟨p, -, hp⟩
        · rcases skipWs_cases tail' u with hnil | hmore
          · rw [hnil] at hitems
            cases n with
            | zero => cases hitems
            | succ n =>
                rcases bind_error_iff.mp hitems with hp | ⟨p, hp, -⟩
                · rw [hempty] at hp
                  cases hp
                · rw [hempty] at hp
                  cases hp
          · rw [hmore]
            exact bind_error_iff.mpr (.inl (ih (by omega) hitems))
        · cases hp
      · cases hs

theorem closed_readBlock (h : Local item) (hempty : item [] = .error decodeError)
    (hclose : isNumberChar close = false) : Closed (readBlock item close) where
  ok := by
    intro s rest u xs hs
    unfold readBlock at hs ⊢
    split at hs
    · cases hs
    rename_i c tail hskip
    rw [skipWs_append hskip]
    dsimp only
    split at hs
    · rename_i heq
      cases hs
      rw [if_pos heq]
    · rename_i hne
      rw [if_neg hne]
      exact readItems_ok h hempty hclose (by simp) hs u
  deep := by
    intro s u hs
    unfold readBlock at hs ⊢
    split at hs
    · cases hs
    rename_i c tail hskip
    rw [skipWs_append hskip]
    dsimp only
    split at hs
    · cases hs
    · rename_i hne
      rw [if_neg hne]
      exact readItems_deep h hempty (by simp) hs u

end

theorem local_readEntry {value : Reader PyValue} (h : Local value)
    (hempty : value [] = .error decodeError) : Local (readEntry value) where
  ok := by
    intro s rest u entry hs hstop
    unfold readEntry at hs
    split at hs
    · rename_i s'
      obtain ⟨⟨key, tail⟩, hkey, hs⟩ := bind_ok_iff.mp hs
      dsimp only at hs
      split at hs
      · rename_i tail' hskip
        obtain ⟨⟨v, tail''⟩, hvalue, hs⟩ := bind_ok_iff.mp hs
        cases hs
        show (readString (s' ++ u) >>= _) = _
        rw [closed_readString.ok hkey, ok_bind]
        dsimp only
        rw [skipWs_append hskip]
        rcases skipWs_cases tail' u with hnil | hmore
        · rw [hnil, hempty] at hvalue
          cases hvalue
        · show (value (skipWs (tail' ++ u)) >>= _) = _
          rw [hmore, h.ok hvalue hstop]
          rfl
      · cases hs
    · cases hs
  deep := by
    intro s u hs
    unfold readEntry at hs
    split at hs
    · rename_i s'
      rcases bind_error_iff.mp hs with hkey | ⟨⟨key, tail⟩, hkey, hs⟩
      · cases only_readString s' _ hkey
      dsimp only at hs
      split at hs
      · rename_i tail' hskip
        show (readString (s' ++ u) >>= _) = _
        rw [closed_readString.ok hkey, ok_bind]
        dsimp only
        rw [skipWs_append hskip]
        rcases bind_error_iff.mp hs with hvalue | ⟨p, -, hp⟩
        · rcases skipWs_cases tail' u with hnil | hmore
          · rw [hnil, hempty] at hvalue
            cases hvalue
          · show (value (skipWs (tail' ++ u)) >>= _) = _
            rw [hmore, h.deep hvalue]
            rfl
        · cases hp
      · cases hs
    · cases hs

theorem readValue_nil (depth : Nat) : readValue floatRepr depth [] = .error decodeError := by
  cases depth <;> rfl

/-- A list or an object ends with its closing bracket, whatever follows. -/
theorem closed_brackets {depth : Nat} (h : Local (readValue floatRepr depth)) {c : Char}
    (hc : c = '[' ∨ c = '{') : Closed fun s => readValue floatRepr (depth + 1) (c :: s) := by
  have hempty := readValue_nil floatRepr depth
  rcases hc with rfl | rfl
  · exact (closed_readBlock h hempty (by decide)).map PyValue.list
  · exact (closed_readBlock (local_readEntry h hempty) rfl (by decide)).map
      fun pairs => PyValue.dict (Dict.ofPairs pairs).entries

/-- What begins with no bracket is an atom. -/
theorem readValue_atom {c : Char} (hc : ¬ (c = '[' ∨ c = '{')) (depth : Nat) (s : PyStr) :
    readValue floatRepr depth (c :: s) = readAtom floatRepr (c :: s) := by
  obtain ⟨hlist, hdict⟩ := not_or.mp hc
  cases depth with
  | zero => exact if_neg hc
  | succ depth =>
      unfold readValue
      rw [if_neg hlist, if_neg hdict]

theorem local_readValue (depth : Nat) : Local (readValue floatRepr depth) := by
  have hatom := local_readAtom floatRepr
  induction depth with
  | zero =>
      constructor
      · intro s rest u v hs hstop
        cases s with
        | nil => cases hs
        | cons c s =>
            by_cases hc : c = '[' ∨ c = '{'
            · rw [readValue, if_pos hc] at hs
              cases hs
            · rw [readValue_atom floatRepr hc] at hs
              rw [List.cons_append, readValue_atom floatRepr hc]
              exact hatom.ok hs hstop
      · intro s u hs
        cases s with
        | nil => cases hs
        | cons c s =>
            by_cases hc : c = '[' ∨ c = '{'
            · exact if_pos hc
            · rw [readValue_atom floatRepr hc] at hs
              cases only_readAtom floatRepr _ _ hs
  | succ depth ih =>
      constructor
      · intro s rest u v hs hstop
        cases s with
        | nil => cases hs
        | cons c s =>
            by_cases hc : c = '[' ∨ c = '{'
            · exact (closed_brackets floatRepr ih hc).ok hs
            · rw [readValue_atom floatRepr hc] at hs
              rw [List.cons_append, readValue_atom floatRepr hc]
              exact hatom.ok hs hstop
      · intro s u hs
        cases s with
        | nil => cases hs
        | cons c s =>
            by_cases hc : c = '[' ∨ c = '{'
            · exact (closed_brackets floatRepr ih hc).deep hs
            · rw [readValue_atom floatRepr hc] at hs
              cases only_readAtom floatRepr _ _ hs

/-! ### Failures -/

/-- The ways in which reading fails. -/
def IsLoadError (e : PyErr) : Prop := e = decodeError ∨ e = recursionError

section

variable {α : Type} {item : Reader α} {close : Char}

theorem only_readItems (h : ∀ s, OnlyRaises IsLoadError (item s)) (turns : Nat) (s : PyStr) :
    OnlyRaises IsLoadError (readItems item close turns s) := by
  induction turns generalizing s with
  | zero => exact .error (.inl rfl)
  | succ turns ih =>
      refine .bind (h s) fun p _ => ?_
      dsimp only
      split
      · exact .error (.inl rfl)
      · split
        · exact .ok _
        · split
          · exact .bind (ih _) fun _ _ => .ok _
          · exact .error (.inl rfl)

theorem only_readBlock (h : ∀ s, OnlyRaises IsLoadError (item s)) (s : PyStr) :
    OnlyRaises IsLoadError (readBlock item close s) := by
  unfold readBlock
  split
  · exact .error (.inl rfl)
  · split
    · exact .ok _
    · exact only_readItems h _ _

end

theorem only_readEntry {value : Reader PyValue} (h : ∀ s, OnlyRaises IsLoadError (value s))
    (s : PyStr) : OnlyRaises IsLoadError (readEntry value s) := by
  unfold readEntry
  split
  · refine .bind (fun e he => .inl (only_readString _ e he)) fun p _ => ?_
    dsimp only
    split
    · exact .bind (h _) fun _ _ => .ok _
    · exact .error (.inl rfl)
  · exact .error (.inl rfl)

theorem only_readValue (depth : Nat) (s : PyStr) :
    OnlyRaises IsLoadError (readValue floatRepr depth s) := by
  induction depth generalizing s with
  | zero =>
      cases s with
      | nil => exact .error (.inl rfl)
      | cons c s =>
          unfold readValue
          split
          · exact .error (.inr rfl)
          · exact fun e he => .inl (only_readAtom floatRepr _ e he)
  | succ depth ih =>
      cases s with
      | nil => exact .error (.inl rfl)
      | cons c s =>
          unfold readValue
          split
          · exact OnlyRaises.map (only_readBlock ih s) _
          · split
            · exact OnlyRaises.map (only_readBlock (only_readEntry ih) s) _
            · exact fun e he => .inl (only_readAtom floatRepr _ e he)

end

end SrxProbe.Lib.Json
