import SrxProbe.Lib.JsonLocal

/-!
# Printed JSON is read back

`json.loads` undoes `json.dumps`, and a list or an object whose text is cut off anywhere
is not read at all.
-/

namespace SrxProbe.Lib.Json

section

variable (floatRepr : PyStr → PyStr)

/-- A value whose text can be read, `depth` calls below the recursion limit: no number is
too long, and a float is one that prints as it is read. -/
inductive Prints : Nat → PyValue → Prop
  | none depth : Prints depth .none
  | bool depth b : Prints depth (.bool b)
  | int depth n : (Nat.toDigits 10 n.natAbs).length ≤ maxStrDigits → Prints depth (.int n)
  | float depth text : readAtom floatRepr (floatText text) = .ok (.float text, []) →
      Prints depth (.float text)
  | str depth s : Prints depth (.str s)
  | list depth items : (∀ item ∈ items, Prints depth item) → Prints (depth + 1) (.list items)
  | dict depth entries : (entries.map Prod.fst).Nodup →
      (∀ entry ∈ entries, Prints depth entry.2) → Prints (depth + 1) (.dict entries)

theorem dumpsItems_eq (items : List PyValue) : dumpsItems items = items.map dumps := by
  induction items with
  | nil => rfl
  | cons item items ih => rw [dumpsItems, ih, List.map_cons]

/-- The text of an entry. -/
def dumpsEntry (entry : PyStr × PyValue) : PyStr :=
  dumpsStr entry.1 ++ ": ".toList ++ dumps entry.2

theorem dumpsEntries_eq (entries : List (PyStr × PyValue)) :
    dumpsEntries entries = entries.map dumpsEntry := by
  induction entries with
  | nil => rfl
  | cons entry entries ih =>
      obtain ⟨key, value⟩ := entry
      rw [dumpsEntries, ih, List.map_cons, dumpsEntry]

/-! ### Atoms -/

theorem spanString_plain {c : Char} (hquote : c ≠ '"') (hslash : c ≠ '\\') (rest : PyStr) :
    spanString (c :: rest) = (spanString rest).map fun p => (c :: p.1, p.2) := by
  rw [spanString]
  · exact hquote
  · intro d rest' hc
    exact absurd hc hslash

theorem digitChar_plain : ∀ d < 16, Nat.digitChar d ≠ '"' ∧ Nat.digitChar d ≠ '\\' := by decide

theorem spanString_escapeUnit {n : Nat} (h : n < 0x10000) (rest : PyStr) :
    spanString (escapeUnit n ++ rest) =
      (spanString rest).map fun p => (escapeUnit n ++ p.1, p.2) := by
  have hplain : ∀ d < 16, ∀ rest, spanString (Nat.digitChar d :: rest) =
      (spanString rest).map fun p => (Nat.digitChar d :: p.1, p.2) := fun d hd rest =>
    spanString_plain (digitChar_plain d hd).1 (digitChar_plain d hd).2 rest
  show spanString ('\\' :: 'u' :: _ :: _ :: _ :: _ :: rest) = _
  rw [spanString, hplain _ (by omega), hplain _ (by omega), hplain _ (by omega),
    hplain _ (by omega)]
  simp only [Option.map_map]
  rfl

theorem spanString_escapeChar (c : Char) (rest : PyStr) : spanString (escapeChar c ++ rest) =
    (spanString rest).map fun p => (escapeChar c ++ p.1, p.2) := by
  have hvalid := Utf8.toNat_valid c
  rcases escapeChar_cases c with ⟨letter, heq, -⟩ | ⟨heq, -, -, hshort⟩ | ⟨heq, hbasic⟩ |
    ⟨heq, hpair⟩
  · rw [heq]
    rfl
  · obtain ⟨hquote, hslash⟩ := shortEscape_none hshort
    rw [heq]
    exact spanString_plain hquote hslash rest
  · rw [heq, spanString_escapeUnit hbasic]
  · rw [heq, List.append_assoc, spanString_escapeUnit (by omega), spanString_escapeUnit (by omega),
      Option.map_map]
    refine congrFun (congrArg _ ?_) _
    funext p
    simp

theorem readString_dumpsStr (s rest : PyStr) :
    readString (s.flatMap escapeChar ++ '"' :: rest) = .ok (s, rest) := by
  have hspan : spanString (s.flatMap escapeChar ++ '"' :: rest) =
      some (s.flatMap escapeChar, rest) := by
    induction s with
    | nil => rfl
    | cons c s ih =>
        rw [List.flatMap_cons, List.append_assoc, spanString_escapeChar, ih]
        rfl
  unfold readString
  rw [hspan, orRaise_some, ok_bind]
  dsimp only
  have hloads : loadsStr ('"' :: s.flatMap escapeChar ++ ['"']) = some s := loadsStr_dumpsStr s
  rw [hloads, orRaise_some, ok_bind]

theorem toDigits_head {n : Nat} (h : n ≠ 0) :
    ∃ c rest, Nat.toDigits 10 n = c :: rest ∧ c ≠ '0' := by
  induction n using Nat.strongRecOn with
  | ind n ih =>
      rw [Nat.toDigits_eq_if (by decide)]
      split
      · rename_i hlt
        have hchar : ∀ d < 10, d ≠ 0 → Nat.digitChar d ≠ '0' := by decide
        exact ⟨_, [], rfl, hchar n hlt h⟩
      · rename_i hge
        obtain ⟨c, rest, heq, hc⟩ := ih (n / 10) (Nat.div_lt_self (by omega) (by decide)) (by omega)
        exact ⟨c, rest ++ [Nat.digitChar (n % 10)], by rw [heq]; rfl, hc⟩

theorem spanWhole_toDigits (n : Nat) :
    spanWhole (Nat.toDigits 10 n) = some (Nat.toDigits 10 n, []) := by
  by_cases h : n = 0
  · subst h
    rfl
  · obtain ⟨c, rest, heq, hc⟩ := toDigits_head h
    have hdigits : ∀ d ∈ c :: rest, IpAddress.isAsciiDigit d = true := by
      intro d hd
      rw [← heq] at hd
      exact IpAddress.isAsciiDigit_of_mem_toDigits hd
    have hrest : spanDigits rest = (rest, []) := by
      have htake := List.takeWhile_eq_self_iff.mpr
        fun d hd => hdigits d (List.mem_cons_of_mem c hd)
      have hdrop := List.dropWhile_eq_nil_iff.mpr
        fun d hd => hdigits d (List.mem_cons_of_mem c hd)
      exact Prod.ext htake hdrop
    rw [heq, spanWhole, if_neg hc, if_pos (hdigits c List.mem_cons_self), hrest]

/-- What begins with a minus sign or a digit is a number. -/
theorem readAtom_number {c : Char} (h : c = '-' ∨ IpAddress.isAsciiDigit c = true) {s : PyStr}
    (hs : s.head? ≠ some 'I') : readAtom floatRepr (c :: s) = readNumber floatRepr (c :: s) := by
  have hne : ∀ d, d ≠ '-' → IpAddress.isAsciiDigit d = false → c ≠ d := by
    rintro d hminus hdigit rfl
    rcases h with h | h
    · exact hminus h
    · rw [hdigit] at h
      cases h
  unfold readAtom
  dsimp only
  rw [if_neg (hne '"' (by decide) (by decide)), if_neg (hne 'n' (by decide) (by decide)),
    if_neg (hne 't' (by decide) (by decide)), if_neg (hne 'f' (by decide) (by decide)),
    if_neg (hne 'N' (by decide) (by decide)), if_neg (hne 'I' (by decide) (by decide)),
    if_neg fun hinf => hs hinf.2]

theorem readAtom_intText {n : Int} (h : (Nat.toDigits 10 n.natAbs).length ≤ maxStrDigits) :
    readAtom floatRepr (intText n) = .ok (.int n, []) := by
  have hparse := parseInt_intText h
  have hwhole := spanWhole_toDigits n.natAbs
  have hdigit := fun c hc => IpAddress.isAsciiDigit_of_mem_toDigits (n := n.natAbs) (c := c) hc
  obtain ⟨c, ds, hds⟩ := List.exists_cons_of_ne_nil (Nat.toDigits_ne_nil (n := n.natAbs) (b := 10))
  rw [hds] at hwhole hdigit
  have hc := hdigit c List.mem_cons_self
  have hmatch : matchNumber (intText n) = some (⟨intText n, [], []⟩, []) := by
    unfold intText
    split
    · show (spanWhole (Nat.toDigits 10 n.natAbs)).map _ = _
      rw [hds, hwhole]
      rfl
    · rw [hds]
      unfold matchNumber
      dsimp only
      rw [if_neg]
      · rw [List.length_nil, List.drop_zero, hwhole]
        rfl
      · intro hminus
        rw [Option.some.inj hminus] at hc
        cases hc
  have hread : readNumber floatRepr (intText n) = .ok (.int n, []) := by
    unfold readNumber
    rw [hmatch, orRaise_some, ok_bind]
    dsimp only [NumberMatch.value]
    rw [if_neg (by simp), hparse]
    rfl
  rw [← hread]
  unfold intText
  split
  · rw [hds]
    refine readAtom_number floatRepr (.inl rfl) ?_
    intro hI
    rw [Option.some.inj hI] at hc
    cases hc
  · rw [hds]
    refine readAtom_number floatRepr (.inr hc) ?_
    intro hI
    have hd := hdigit 'I' (List.mem_cons_of_mem c (List.mem_of_head? hI))
    cases hd

/-! ### Lists and objects -/

section

variable {α : Type} {item : Reader α} {close : Char} {text : α → PyStr}

/-- Behind the first item comes a comma or the closing bracket. -/
theorem intercalate_head (text : α → PyStr) (hws : isWs close = false) (x : α) (xs : List α)
    (rest : PyStr) :
    ∃ c u, isWs c = false ∧
      [',', ' '].intercalate ((x :: xs).map text) ++ close :: rest = text x ++ c :: u := by
  cases xs with
  | nil => exact ⟨close, rest, hws, by rw [List.map_singleton, List.intercalate_singleton]⟩
  | cons y ys =>
      refine ⟨',', ' ' :: ([',', ' '].intercalate ((y :: ys).map text) ++ close :: rest),
        by decide, ?_⟩
      rw [List.map_cons, List.map_cons, List.intercalate_cons_cons]
      simp

theorem length_intercalate {xs : List α} (hne : ∀ y ∈ xs, text y ≠ []) :
    xs.length ≤ ([',', ' '].intercalate (xs.map text)).length := by
  induction xs with
  | nil => exact Nat.zero_le _
  | cons x xs ih =>
      have hx := List.length_pos_of_ne_nil (hne x List.mem_cons_self)
      have hxs := ih fun y hy => hne y (List.mem_cons_of_mem x hy)
      cases xs with
      | nil =>
          rw [List.map_singleton, List.intercalate_singleton]
          exact hx
      | cons y ys =>
          rw [List.map_cons, List.map_cons, List.intercalate_cons_cons, ← List.map_cons]
          simp only [List.length_append, List.length_cons, List.length_nil] at hxs ⊢
          omega

/-- Items that are read back one by one are read back between commas. -/
theorem readItems_text (h : Local item) (hclose : isNumberChar close = false)
    (hcomma : close ≠ ',') (hws : isWs close = false) {x : α} {xs : List α}
    (htext : ∀ y ∈ x :: xs, item (text y) = .ok (y, []))
    (hhead : ∀ y ∈ x :: xs, ∃ c s, text y = c :: s ∧ isWs c = false ∧ c ≠ close) (rest : PyStr) :
    readItems item close (xs.length + 1)
      ([',', ' '].intercalate ((x :: xs).map text) ++ close :: rest) = .ok (x :: xs, rest) := by
  have hitem : ∀ y ∈ x :: xs, ∀ c u, isNumberChar c = false →
      item (text y ++ c :: u) = .ok (y, c :: u) := fun y hy c u hc =>
    h.ok (htext y hy) (Stops.cons hc u)
  induction xs generalizing x with
  | nil =>
      rw [List.map_singleton, List.intercalate_singleton]
      unfold readItems
      rw [hitem x List.mem_cons_self close rest hclose, ok_bind]
      dsimp only
      rw [skipWs_cons hws]
      dsimp only
      rw [if_pos rfl]
  | cons y ys ih =>
      have hitems := ih (fun z hz => htext z (List.mem_cons_of_mem x hz))
        (fun z hz => hhead z (List.mem_cons_of_mem x hz))
        (fun z hz => hitem z (List.mem_cons_of_mem x hz))
      have hskip : skipWs (' ' :: ([',', ' '].intercalate ((y :: ys).map text) ++ close :: rest)) =
          [',', ' '].intercalate ((y :: ys).map text) ++ close :: rest := by
        obtain ⟨d, u, -, htail⟩ := intercalate_head text hws y ys rest
        obtain ⟨c, s, hy, hc, -⟩ := hhead y (List.mem_cons_of_mem x List.mem_cons_self)
        rw [htail, hy]
        exact skipWs_cons hc _
      have hfirst : item (text x ++ [',', ' '] ++ [',', ' '].intercalate ((y :: ys).map text) ++
          close :: rest) = .ok (x, ',' :: ' ' :: ([',', ' '].intercalate ((y :: ys).map text) ++
            close :: rest)) := by
        rw [List.append_assoc, List.append_assoc]
        exact hitem x List.mem_cons_self ',' _ (by decide)
      rw [List.map_cons, List.map_cons, List.intercalate_cons_cons, ← List.map_cons]
      unfold readItems
      rw [hfirst, ok_bind]
      dsimp only
      rw [skipWs_cons (by decide)]
      dsimp only
      rw [if_neg (Ne.symm hcomma), if_pos rfl, hskip, List.length_cons, hitems]
      rfl

theorem readBlock_text (h : Local item) (hempty : item [] = .error decodeError)
    (hclose : isNumberChar close = false) (hcomma : close ≠ ',') (hws : isWs close = false)
    {xs : List α} (htext : ∀ y ∈ xs, item (text y) = .ok (y, []))
    (hhead : ∀ y ∈ xs, ∃ c s, text y = c :: s ∧ isWs c = false ∧ c ≠ close) (rest : PyStr) :
    readBlock item close ([',', ' '].intercalate (xs.map text) ++ close :: rest) =
      .ok (xs, rest) := by
  cases xs with
  | nil =>
      show readBlock item close (close :: rest) = _
      unfold readBlock
      rw [skipWs_cons hws]
      dsimp only
      rw [if_pos rfl]
  | cons x xs =>
      have hitems := readItems_text h hclose hcomma hws htext hhead rest
      have hne : ∀ y ∈ x :: xs, text y ≠ [] := by
        intro y hy
        obtain ⟨c, s, hy, -, -⟩ := hhead y hy
        rw [hy]
        exact List.cons_ne_nil c s
      have hlen := length_intercalate hne
      obtain ⟨d, u, -, htail⟩ := intercalate_head text hws x xs rest
      obtain ⟨c, s, hx, hc, hfirst⟩ := hhead x List.mem_cons_self
      have hmore := readItems_ok h hempty hclose
        (m := ([',', ' '].intercalate ((x :: xs).map text) ++ close :: rest).length)
        (by rw [List.length_append]; simp only [List.length_cons] at hlen ⊢; omega) hitems []
      rw [List.append_nil, List.append_nil] at hmore
      rw [htail, hx] at hmore ⊢
      unfold readBlock
      rw [List.cons_append, skipWs_cons hc]
      dsimp only
      rw [if_neg hfirst]
      exact hmore

end

/-! ### Values -/

/-- A value begins with none of these. -/
theorem readValue_start {depth : Nat} {s : PyStr} {p : PyValue × PyStr}
    (h : readValue floatRepr depth s = .ok p) :
    ∃ c t, s = c :: t ∧ isWs c = false ∧ c ≠ ']' := by
  cases s with
  | nil =>
      rw [readValue_nil] at h
      cases h
  | cons c t =>
      refine ⟨c, t, rfl, ?_, ?_⟩
      · by_contra hws
        rw [Bool.not_eq_false] at hws
        simp only [isWs, Bool.or_eq_true, decide_eq_true_eq] at hws
        rcases hws with ((rfl | rfl) | rfl) | rfl
        all_goals
          cases depth
          all_goals cases h
      · rintro rfl
        cases depth
        all_goals cases h

/-- A value that is no list and no object is read as an atom at every depth. -/
theorem readValue_of_readAtom {s : PyStr} {v : PyValue} {rest : PyStr}
    (h : readAtom floatRepr s = .ok (v, rest)) (depth : Nat) :
    readValue floatRepr depth s = .ok (v, rest) := by
  cases s with
  | nil => cases h
  | cons c s =>
      rw [readValue_atom]
      · exact h
      · rintro (rfl | rfl)
        all_goals cases h

theorem readEntry_dumps {value : Reader PyValue} (entry : PyStr × PyValue)
    (h : value (dumps entry.2) = .ok (entry.2, []))
    (hskip : skipWs (dumps entry.2) = dumps entry.2) :
    readEntry value (dumpsEntry entry) = .ok (entry, []) := by
  have htext : dumpsEntry entry =
      '"' :: (entry.1.flatMap escapeChar ++ '"' :: ':' :: ' ' :: dumps entry.2) := by
    simp [dumpsEntry, dumpsStr]
  have hspace : skipWs (' ' :: dumps entry.2) = skipWs (dumps entry.2) := by
    unfold skipWs
    rw [List.dropWhile_cons_of_pos (by decide)]
  rw [htext]
  show (readString (entry.1.flatMap escapeChar ++ '"' :: ':' :: ' ' :: dumps entry.2) >>= _) = _
  rw [readString_dumpsStr, ok_bind]
  dsimp only
  rw [skipWs_cons (by decide)]
  show (value (skipWs (' ' :: dumps entry.2)) >>= _) = _
  rw [hspace, hskip, h]
  rfl

/-- **Reading undoes printing.** -/
theorem readValue_dumps {depth : Nat} {v : PyValue} (h : Prints floatRepr depth v) :
    readValue floatRepr depth (dumps v) = .ok (v, []) := by
  induction h with
  | none depth => exact readValue_of_readAtom floatRepr rfl depth
  | bool depth b =>
      cases b
      · exact readValue_of_readAtom floatRepr rfl depth
      · exact readValue_of_readAtom floatRepr rfl depth
  | int depth n hlen =>
      exact readValue_of_readAtom floatRepr (readAtom_intText floatRepr hlen) depth
  | float depth text htext => exact readValue_of_readAtom floatRepr htext depth
  | str depth s =>
      refine readValue_of_readAtom floatRepr ?_ depth
      show (readString (s.flatMap escapeChar ++ ['"'])).map _ = _
      rw [readString_dumpsStr]
      rfl
  | list depth items _ ih =>
      have hblock :=
        readBlock_text (local_readValue floatRepr depth) (readValue_nil floatRepr depth)
        (by decide : isNumberChar ']' = false) (by decide) (by decide) ih
        (fun item hitem => readValue_start floatRepr (ih item hitem)) []
      rw [dumps, dumpsItems_eq]
      show (readBlock (readValue floatRepr depth) ']'
        ([',', ' '].intercalate (items.map dumps) ++ [']'])).map _ = _
      rw [hblock]
      rfl
  | dict depth entries hkeys _ ih =>
      have hentry : ∀ entry ∈ entries,
          readEntry (readValue floatRepr depth) (dumpsEntry entry) = .ok (entry, []) := by
        intro entry hentry
        refine readEntry_dumps entry (ih entry hentry) ?_
        obtain ⟨c, t, heq, hws, -⟩ := readValue_start floatRepr (ih entry hentry)
        rw [heq]
        exact skipWs_cons hws t
      have hblock := readBlock_text (local_readEntry (local_readValue floatRepr depth)
        (readValue_nil floatRepr depth)) rfl (by decide : isNumberChar '}' = false) (by decide)
        (by decide) hentry (fun entry _ => ⟨'"', _, rfl, by decide, by decide⟩) []
      rw [dumps, dumpsEntries_eq]
      show (readBlock (readEntry (readValue floatRepr depth)) '}'
        ([',', ' '].intercalate (entries.map dumpsEntry) ++ ['}'])).map _ = _
      rw [hblock]
      show Except.ok (PyValue.dict (Dict.ofPairs entries).entries, []) = _
      rw [Dict.ofPairs_entries hkeys]

theorem loads_dumps {limit : Nat} {v : PyValue} (h : Prints floatRepr limit v) :
    loads floatRepr limit (dumps v) = .ok v := by
  have hread := readValue_dumps floatRepr h
  obtain ⟨c, t, heq, hws, -⟩ := readValue_start floatRepr hread
  have hskip : skipWs (dumps v) = dumps v := by
    rw [heq]
    exact skipWs_cons hws t
  unfold loads
  rw [hskip, hread]
  rfl

/-- **A list or an object that is cut off is not read.** -/
theorem loads_cut {limit : Nat} {v : PyValue} (h : Prints floatRepr limit v)
    (hv : (∃ items, v = .list items) ∨ ∃ entries, v = .dict entries) {s : PyStr}
    (hs : s <+: dumps v) (hne : s ≠ dumps v) : loads floatRepr limit s = .error decodeError := by
  have hread := readValue_dumps floatRepr h
  -- the text begins with its bracket
  have hopen : ∃ c t, dumps v = c :: t ∧ (c = '[' ∨ c = '{') := by
    rcases hv with ⟨items, rfl⟩ | ⟨entries, rfl⟩
    · exact ⟨'[', _, rfl, .inl rfl⟩
    · exact ⟨'{', _, rfl, .inr rfl⟩
  have hlimit : limit ≠ 0 := by
    rintro rfl
    rcases hv with ⟨items, rfl⟩ | ⟨entries, rfl⟩
    all_goals cases h
  obtain ⟨depth, rfl⟩ := Nat.exists_eq_succ_of_ne_zero hlimit
  obtain ⟨c, t, htext, hc⟩ := hopen
  obtain ⟨u, hu⟩ := hs
  cases s with
  | nil => rfl
  | cons d s =>
      have hcons : d :: (s ++ u) = c :: t := hu.trans htext
      obtain ⟨rfl, rfl⟩ := List.cons.inj hcons
      have hclosed := closed_brackets floatRepr (local_readValue floatRepr depth) hc
      have hskip : skipWs (d :: s) = d :: s := by
        rcases hc with rfl | rfl
        all_goals rfl
      rw [htext] at hread
      unfold loads
      rw [hskip]
      cases hcut : readValue floatRepr (depth + 1) (d :: s) with
      | error e =>
          rcases only_readValue floatRepr _ _ e hcut with rfl | rfl
          · rfl
          · have hfull := hclosed.deep (u := u) hcut
            rw [hread] at hfull
            cases hfull
      | ok p =>
          obtain ⟨w, rest⟩ := p
          -- nothing is left of the whole text, so nothing was cut off
          have hfull := hclosed.ok (u := u) hcut
          rw [hread] at hfull
          injection hfull with hfull
          injection hfull with _ hrest
          have hnil := (List.append_eq_nil_iff.mp hrest.symm).2
          rw [hnil, List.append_nil] at htext
          exact absurd htext.symm hne

end

end SrxProbe.Lib.Json
