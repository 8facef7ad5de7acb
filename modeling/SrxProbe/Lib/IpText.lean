import SrxProbe.Lib.IpAddress

/-!
# The text of an address

A printed address is read as the address it was printed from: the digits of every
part are its number again, and the gap stands for a run of zeros.
-/

namespace SrxProbe.Lib.IpAddress

/-! ## Numbers in a base -/

section base

variable {α : Type} {b : Nat}

/-- The number with these digits behind the digits of another, the first one highest. -/
def ofBase (b init : Nat) (ds : List Nat) : Nat := ds.foldl (fun n d => b * n + d) init

/-- The lowest `k` digits of a number. -/
def baseDigits (b k n : Nat) : List Nat := (List.range k).map fun i => n / b ^ (k - 1 - i) % b

theorem ofBase_append (init : Nat) (ds ds' : List Nat) :
    ofBase b init (ds ++ ds') = ofBase b (ofBase b init ds) ds' :=
  List.foldl_append

theorem ofBase_zeros (init k : Nat) : ofBase b init (List.replicate k 0) = b ^ k * init := by
  induction k generalizing init with
  | zero => exact (Nat.one_mul init).symm
  | succ k ih =>
      show ofBase b (b * init + 0) (List.replicate k 0) = _
      rw [ih, Nat.add_zero, Nat.pow_succ, Nat.mul_assoc]

theorem baseDigits_succ (b k n : Nat) :
    baseDigits b (k + 1) n = baseDigits b k (n / b) ++ [n % b] := by
  unfold baseDigits
  rw [List.range_succ, List.map_append, List.map_singleton, Nat.add_sub_cancel, Nat.sub_self,
    Nat.pow_zero, Nat.div_one]
  congr 1
  apply List.map_congr_left
  intro i hi
  have hi := List.mem_range.mp hi
  have hexp : k - i = k - 1 - i + 1 := by omega
  rw [hexp, Nat.pow_succ, Nat.mul_comm, Nat.div_div_eq_div_mul]

theorem ofBase_baseDigits (b k n : Nat) : ofBase b 0 (baseDigits b k n) = n % b ^ k := by
  induction k generalizing n with
  | zero => exact (Nat.mod_one n).symm
  | succ k ih =>
      rw [baseDigits_succ, ofBase_append, ih, Nat.pow_succ, Nat.mul_comm (b ^ k), Nat.mod_mul,
        Nat.add_comm]
      rfl

/-- A loop over parts that are read one by one reads their number. -/
theorem foldlM_ofBase {read : α → Option Nat} {l : List α} {ds : List Nat}
    (h : l.map read = ds.map some) (init : Nat) :
    l.foldlM (fun n a => (read a).map (b * n + ·)) init = some (ofBase b init ds) := by
  induction l generalizing ds init with
  | nil =>
      obtain rfl : ds = [] := List.map_eq_nil_iff.mp h.symm
      rfl
  | cons a l ih =>
      cases ds with
      | nil => cases h
      | cons d ds =>
          obtain ⟨hd, hl⟩ := List.cons.inj h
          rw [List.foldlM_cons, hd]
          exact ih hl (b * init + d)

/-- What such a loop returns is the number of what it has read. -/
theorem map_read_of_foldlM {read : α → Option Nat} {l : List α} {init r : Nat}
    (h : l.foldlM (fun n a => (read a).map (b * n + ·)) init = some r) :
    ∃ ds, l.map read = ds.map some ∧ r = ofBase b init ds := by
  induction l generalizing init with
  | nil =>
      cases h
      exact ⟨[], rfl, rfl⟩
  | cons a l ih =>
      rw [List.foldlM_cons] at h
      obtain ⟨n, hn, hrest⟩ := Option.bind_eq_some_iff.mp h
      obtain ⟨d, hd, rfl⟩ := Option.map_eq_some_iff.mp hn
      obtain ⟨ds, hds, rfl⟩ := ih hrest
      exact ⟨d :: ds, by rw [List.map_cons, List.map_cons, hd, hds], rfl⟩

/-- Parts that are written as what was read in them. -/
theorem digits_of_read {read : α → Option Nat} {write : Nat → α} {l : List α} {ds : List Nat}
    (hread : ∀ a ∈ l, ∀ d, read a = some d → d < b ∧ write d = a)
    (h : l.map read = ds.map some) : (∀ d ∈ ds, d < b) ∧ ds.map write = l := by
  induction l generalizing ds with
  | nil =>
      obtain rfl : ds = [] := List.map_eq_nil_iff.mp h.symm
      exact ⟨nofun, rfl⟩
  | cons a l ih =>
      cases ds with
      | nil => cases h
      | cons d ds =>
          obtain ⟨hd, hl⟩ := List.cons.inj h
          obtain ⟨hlt, hwrite⟩ := hread a List.mem_cons_self d hd
          obtain ⟨hall, hmap⟩ := ih (fun a' ha' => hread a' (List.mem_cons_of_mem a ha')) hl
          refine ⟨?_, by rw [List.map_cons, hwrite, hmap]⟩
          intro d' hd'
          rcases List.mem_cons.mp hd' with rfl | hd'
          · exact hlt
          · exact hall d' hd'

/-- The digits of a number put together from digits are those. -/
theorem baseDigits_ofBase {ds : List Nat} (h : ∀ d ∈ ds, d < b) :
    baseDigits b ds.length (ofBase b 0 ds) = ds := by
  induction ds using List.reverseRecOn with
  | nil => rfl
  | append_singleton ds d ih =>
      have hd : d < b := h d (List.mem_append_right _ (List.mem_singleton_self d))
      have hpos : 0 < b := Nat.zero_lt_of_lt hd
      have hlast : ofBase b 0 (ds ++ [d]) = d + b * ofBase b 0 ds := by
        rw [ofBase_append, Nat.add_comm]
        rfl
      rw [List.length_append, List.length_singleton, baseDigits_succ, hlast,
        Nat.add_mul_div_left _ _ hpos, Nat.div_eq_of_lt hd, Nat.zero_add, Nat.add_mul_mod_self_left,
        Nat.mod_eq_of_lt hd, ih fun d' hd' => h d' (List.mem_append_left _ hd')]

/-- What such a loop returns is bounded by the number of parts. -/
theorem lt_of_foldlM {read : α → Option Nat} {l : List α} {init r : Nat}
    (hread : ∀ a ∈ l, ∀ d, read a = some d → d < b)
    (h : l.foldlM (fun n a => (read a).map (b * n + ·)) init = some r) :
    r < (init + 1) * b ^ l.length := by
  induction l generalizing init with
  | nil =>
      cases h
      rw [List.length_nil, Nat.pow_zero, Nat.mul_one]
      exact Nat.lt_succ_self _
  | cons a l ih =>
      rw [List.foldlM_cons] at h
      obtain ⟨n, hn, hrest⟩ := Option.bind_eq_some_iff.mp h
      obtain ⟨d, hd, rfl⟩ := Option.map_eq_some_iff.mp hn
      have hlt := hread a List.mem_cons_self d hd
      have hstep : b * init + d + 1 ≤ (init + 1) * b := by
        rw [Nat.succ_mul, Nat.mul_comm]
        omega
      calc r < (b * init + d + 1) * b ^ l.length :=
            ih (fun a' ha' => hread a' (List.mem_cons_of_mem a ha')) hrest
        _ ≤ (init + 1) * b * b ^ l.length := Nat.mul_le_mul_right _ hstep
        _ = (init + 1) * b ^ (a :: l).length := by
            rw [List.length_cons, Nat.pow_succ, Nat.mul_assoc, Nat.mul_comm b]

end base

/-! ## Hextets -/

/-- One to four characters. -/
structure IsHextet (s : PyStr) : Prop where
  nonempty : s ≠ []
  short : s.length ≤ 4

theorem isHextet_hexText {n : Nat} (h : n < 65536) : IsHextet (hexText n) where
  nonempty := Nat.toDigits_ne_nil
  short := (Nat.length_toDigits_le_iff (by decide) (by decide)).mpr h

theorem hexValue_digitChar : ∀ d < 16, hexValue (Nat.digitChar d) = some d := by decide

/-- Hexadecimal digits are read as the number they were printed from. -/
theorem foldlM_hexText (n : Nat) :
    (hexText n).foldlM (fun n c => (hexValue c).map (16 * n + ·)) 0 = some n := by
  induction n using Nat.strongRecOn with
  | ind n ih =>
      unfold hexText at ih ⊢
      rw [Nat.toDigits_eq_if (by decide)]
      by_cases hlt : n < 16
      · rw [if_pos hlt, List.foldlM_cons, hexValue_digitChar n hlt]
        simp
      · have hlast : 16 * (n / 16) + n % 16 = n := Nat.div_add_mod n 16
        rw [if_neg hlt, List.foldlM_append, ih (n / 16) (by omega)]
        simp [hexValue_digitChar (n % 16) (Nat.mod_lt _ (by decide)), hlast]

theorem parseHextet_of_isHextet {s : PyStr} (h : IsHextet s) :
    parseHextet s = s.foldlM (fun n c => (hexValue c).map (16 * n + ·)) 0 := by
  have hempty : s.isEmpty = false := List.isEmpty_eq_false_iff.mpr h.nonempty
  have hshort : ¬ 4 < s.length := Nat.not_lt.mpr h.short
  unfold parseHextet
  rw [if_neg (by simp [hempty, hshort])]

theorem parseHextet_hexText {n : Nat} (h : n < 65536) : parseHextet (hexText n) = some n := by
  rw [parseHextet_of_isHextet (isHextet_hexText h), foldlM_hexText]

theorem hexValue_lt {c : Char} {d : Nat} (h : hexValue c = some d) : d < 16 := by
  unfold hexValue inRange at h
  simp only [Bool.and_eq_true, decide_eq_true_eq] at h
  have h0 : '0'.toNat = 48 := by decide
  have h9 : '9'.toNat = 57 := by decide
  have ha : 'a'.toNat = 97 := by decide
  have hf : 'f'.toNat = 102 := by decide
  have hA : 'A'.toNat = 65 := by decide
  have hF : 'F'.toNat = 70 := by decide
  split at h
  · cases h
    omega
  · split at h
    · cases h
      omega
    · split at h
      · cases h
        omega
      · cases h

theorem parseHextet_lt {s : PyStr} {n : Nat} (h : parseHextet s = some n) : n < 65536 := by
  have hform : IsHextet s := by
    unfold parseHextet at h
    split at h
    · cases h
    · rename_i hform
      simp only [Bool.or_eq_true, List.isEmpty_iff, decide_eq_true_eq, not_or, Nat.not_lt] at hform
      exact ⟨hform.1, hform.2⟩
  rw [parseHextet_of_isHextet hform] at h
  have hlt := lt_of_foldlM (fun c _ d => hexValue_lt) h
  calc n < (0 + 1) * 16 ^ s.length := hlt
    _ ≤ (0 + 1) * 16 ^ 4 := Nat.mul_le_mul_left _ (Nat.pow_le_pow_right (by decide) hform.short)

/-- The printed hextets of numbers are read as their number. -/
theorem readHextets_hexText {ns : List Nat} (h : ∀ n ∈ ns, n < 65536) (init : Nat) :
    readHextets init (ns.map hexText) = some (ofBase 65536 init ns) := by
  apply foldlM_ofBase
  rw [List.map_map]
  exact List.map_congr_left fun n hn => parseHextet_hexText (h n hn)

theorem readHextets_lt {parts : List PyStr} {init r : Nat} (h : readHextets init parts = some r) :
    r < (init + 1) * 65536 ^ parts.length :=
  lt_of_foldlM (fun _ _ _ => parseHextet_lt) h

/-! ## Parts around a gap -/

/-- The parts on one side of a gap, with the empty part of an open end. -/
def openEnd (parts : List PyStr) : List PyStr := if parts = [] then [[]] else parts

theorem openEnd_ne_nil (parts : List PyStr) : openEnd parts ≠ [] := by
  unfold openEnd
  split <;> simp_all

theorem tail_openEnd_append (parts rest : List PyStr) :
    (openEnd parts ++ rest).tail = parts.tail ++ rest := by
  cases parts <;> simp [openEnd]

theorem dropLast_openEnd {parts : List PyStr} (front : List PyStr) :
    (front ++ openEnd parts).dropLast = front ++ parts.dropLast := by
  rw [List.dropLast_append_of_ne_nil (openEnd_ne_nil parts)]
  cases parts <;> simp [openEnd]

theorem head?_openEnd_append {parts : List PyStr} (h : [] ∉ parts) (rest : List PyStr) :
    (openEnd parts ++ rest).head? = some [] ↔ parts = [] := by
  cases parts with
  | nil => simp [openEnd]
  | cons part parts => simp_all [openEnd, eq_comm]

theorem getLast?_append_openEnd {parts : List PyStr} (h : [] ∉ parts) (front : List PyStr) :
    (front ++ openEnd parts).getLast? = some [] ↔ parts = [] := by
  rw [List.getLast?_append_of_ne_nil _ (openEnd_ne_nil parts)]
  rcases List.eq_nil_or_concat parts with rfl | ⟨parts, part, rfl⟩
  · simp [openEnd]
  · have hlast : part ≠ [] := by
      rintro rfl
      exact h (by simp)
    simp [openEnd, hlast]

/-- The parts around a gap, taken apart. -/
theorem interior_gap (hi lo : List PyStr) :
    (openEnd hi ++ [] :: openEnd lo).tail.dropLast = hi.tail ++ [] :: lo.dropLast := by
  rw [tail_openEnd_append, ← List.singleton_append, ← List.append_assoc, dropLast_openEnd]
  simp

theorem length_openEnd (parts : List PyStr) :
    (openEnd parts).length = if parts = [] then 1 else parts.length := by
  unfold openEnd
  split <;> rfl

theorem take_openEnd (parts rest : List PyStr) :
    (openEnd parts ++ rest).take parts.length = parts := by
  cases parts with
  | nil => rfl
  | cons part parts => exact List.take_left

theorem drop_openEnd (front parts : List PyStr) :
    (front ++ openEnd parts).drop ((front ++ openEnd parts).length - parts.length) = parts := by
  cases parts with
  | nil => simp
  | cons part parts => simp [openEnd]

/-- Hextets around a gap are read, the gap as zeros. -/
theorem readParts_gap {hi lo : List PyStr} (hhi : ∀ part ∈ hi, IsHextet part)
    (hlo : ∀ part ∈ lo, IsHextet part) (hlen : hi.length + lo.length < 8) :
    readParts (openEnd hi ++ [] :: openEnd lo) = (readHextets 0 hi).bind fun ip =>
      readHextets (65536 ^ (8 - (hi.length + lo.length)) * ip) lo := by
  have hne : ∀ {parts : List PyStr}, (∀ part ∈ parts, IsHextet part) → [] ∉ parts :=
    fun h hmem => (h [] hmem).nonempty rfl
  have hhi' : [] ∉ hi.tail := fun h => hne hhi (List.mem_of_mem_tail h)
  have hlo' : [] ∉ lo.dropLast := fun h => hne hlo (List.dropLast_subset lo h)
  have hcount : (hi.tail ++ [] :: lo.dropLast).count [] = 1 := by
    rw [List.count_append, List.count_cons_self, List.count_eq_zero.mpr hhi',
      List.count_eq_zero.mpr hlo']
  have hidx : (hi.tail ++ [] :: lo.dropLast).idxOf [] = hi.tail.length := by
    rw [List.idxOf_append_of_notMem hhi', List.idxOf_cons_self, Nat.add_zero]
  have hhead := head?_openEnd_append (hne hhi) ([] :: openEnd lo)
  have hlast := getLast?_append_openEnd (hne hlo) (openEnd hi ++ [[]])
  rw [List.append_assoc, List.singleton_append] at hlast
  have htotal : (openEnd hi ++ [] :: openEnd lo).length =
      (openEnd hi).length + (openEnd lo).length + 1 := by
    rw [List.length_append, List.length_cons]
    omega
  have hhiLen := length_openEnd hi
  have hloLen := length_openEnd lo
  unfold readParts
  simp only [interior_gap, hcount, hidx, hhead, hlast, htotal]
  rw [if_neg (by split at hhiLen <;> split at hloLen <;> omega), if_neg (by decide),
    if_pos True.intro]
  -- the gap stands after `hi`, and what follows it is `lo`
  have hhigh : (if hi = [] then hi.tail.length + 1 - 1 else hi.tail.length + 1) = hi.length := by
    cases hi <;> simp
  have hlow : (if lo = [] then
      (openEnd hi).length + (openEnd lo).length + 1 - (hi.tail.length + 1) - 1 - 1
      else (openEnd hi).length + (openEnd lo).length + 1 - (hi.tail.length + 1) - 1) =
      lo.length := by
    cases hi <;> cases lo <;> simp [openEnd]
    omega
  have hnohigh : ¬ (decide (hi = []) && decide (hi.length ≠ 0)) = true := by
    simp +contextual
  have hnolow : ¬ (decide (lo = []) && decide (lo.length ≠ 0)) = true := by
    simp +contextual
  have hdrop := drop_openEnd (openEnd hi ++ [[]]) lo
  rw [List.append_assoc, List.singleton_append, htotal] at hdrop
  simp only [hhigh, hlow]
  rw [if_neg hnohigh, if_neg hnolow, if_neg (Nat.not_le.mpr hlen), take_openEnd, hdrop]
  rfl

/-- Eight hextets without a gap are read. -/
theorem readParts_hextets {parts : List PyStr} (h : ∀ part ∈ parts, IsHextet part)
    (hlen : parts.length = 8) : readParts parts = readHextets 0 parts := by
  have hne : [] ∉ parts := fun hmem => (h [] hmem).nonempty rfl
  have hcount : parts.tail.dropLast.count [] = 0 :=
    List.count_eq_zero.mpr fun hmem => hne (List.mem_of_mem_tail (List.dropLast_subset _ hmem))
  have hhead : parts.head? ≠ some [] := fun hhead => hne (List.mem_of_head? hhead)
  have hlast : parts.getLast? ≠ some [] := fun hlast => hne (List.mem_of_getLast? hlast)
  unfold readParts
  simp only [hlen, hcount, hhead, hlast]
  rfl

/-! ## The longest run of zeros -/

/-- What the loop knows of the hextets it has seen. -/
structure ZeroRun.Within (run : ZeroRun) (seen : List PyStr) : Prop where
  best : run.bestStart + run.bestLen ≤ seen.length
  bestZeros : ∀ i, run.bestStart ≤ i → i < run.bestStart + run.bestLen → seen[i]? = some ['0']
  current : ∀ start, run.start = some start → start + run.len = seen.length
  currentZeros : ∀ start, run.start = some start → ∀ i, start ≤ i → i < seen.length →
    seen[i]? = some ['0']
  noRun : run.start = none → run.len = 0

theorem ZeroRun.Within.step {run : ZeroRun} {seen : List PyStr} (h : run.Within seen)
    (hextet : PyStr) : (run.step seen.length hextet).Within (seen ++ [hextet]) := by
  have hbest := h.best
  have hlen : (seen ++ [hextet]).length = seen.length + 1 := List.length_append
  have hold : ∀ {i}, i < seen.length → (seen ++ [hextet])[i]? = seen[i]? :=
    fun hi => List.getElem?_append_left hi
  have hbestZeros : ∀ i, run.bestStart ≤ i → i < run.bestStart + run.bestLen →
      (seen ++ [hextet])[i]? = some ['0'] := by
    intro i hlo hhi
    rw [hold (by omega)]
    exact h.bestZeros i hlo hhi
  unfold ZeroRun.step
  by_cases hzero : hextet = ['0']
  -- a zero extends the current run, or begins one of length one at this index
  · have hstart : run.start.getD seen.length + run.len = seen.length := by
      cases hstart : run.start with
      | none => simp [h.noRun hstart]
      | some start => exact h.current start hstart
    have hzeros : ∀ i, run.start.getD seen.length ≤ i → i < seen.length + 1 →
        (seen ++ [hextet])[i]? = some ['0'] := by
      intro i hlo hhi
      by_cases hi : i < seen.length
      · rw [hold hi]
        cases hstart : run.start with
        | none =>
            rw [hstart, Option.getD_none] at hlo
            omega
        | some start =>
            rw [hstart, Option.getD_some] at hlo
            exact h.currentZeros start hstart i hlo hi
      · obtain rfl : i = seen.length := by omega
        rw [List.getElem?_concat_length, hzero]
    rw [if_pos hzero]
    simp only
    -- the current run is now the best one, or the best one stays
    split
    · refine ⟨?_, ?_, ?_, ?_, ?_⟩
      · simp only [hlen]
        omega
      · exact fun i hlo hhi => hzeros i hlo (by simp only at hhi; omega)
      · rintro start ⟨⟩
        simp only [hlen]
        omega
      · rintro start ⟨⟩ i hlo hhi
        exact hzeros i hlo (hlen ▸ hhi)
      · rintro ⟨⟩
    · refine ⟨?_, hbestZeros, ?_, ?_, ?_⟩
      · simp only [hlen]
        omega
      · rintro start ⟨⟩
        simp only [hlen]
        omega
      · rintro start ⟨⟩ i hlo hhi
        exact hzeros i hlo (hlen ▸ hhi)
      · rintro ⟨⟩
  -- anything else ends the current run
  · rw [if_neg hzero]
    refine ⟨?_, hbestZeros, ?_, ?_, fun _ => rfl⟩
    · simp only [hlen]
      omega
    · rintro start ⟨⟩
    · rintro start ⟨⟩

theorem ZeroRun.Within.zeroRun {run : ZeroRun} {seen : List PyStr} (h : run.Within seen)
    (hextets : List PyStr) : (zeroRun seen.length run hextets).Within (seen ++ hextets) := by
  induction hextets generalizing seen run with
  | nil =>
      rw [List.append_nil]
      exact h
  | cons hextet rest ih =>
      have hrest := ih (h.step hextet)
      rw [List.length_append, List.length_singleton, List.append_assoc] at hrest
      exact hrest

theorem replaceRun_eq {hextets : List PyStr} {start stop : Nat} (hlt : start < stop)
    (hstop : stop ≤ hextets.length) : replaceRun hextets start stop =
      openEnd (hextets.take start) ++ [] :: openEnd (hextets.drop stop) := by
  have htake : hextets.take start = [] ↔ start = 0 := by
    rw [List.take_eq_nil_iff]
    constructor
    · rintro (h | rfl)
      · exact h
      · simp at hstop
        omega
    · exact Or.inl
  have hdrop : hextets.drop stop = [] ↔ stop = hextets.length := by
    rw [List.drop_eq_nil_iff]
    omega
  unfold replaceRun openEnd
  simp only [htake, hdrop]
  split <;> split <;> simp_all

/-- Compressing leaves the hextets as they are, or puts a gap where they have a run of
zeros. -/
theorem compressHextets_cases (parts : List PyStr) : compressHextets parts = parts ∨
    ∃ hi lo k, 1 < k ∧ parts = hi ++ (List.replicate k ['0'] ++ lo) ∧
      compressHextets parts = openEnd hi ++ [] :: openEnd lo := by
  have hstart : ZeroRun.Within ⟨0, 0, none, 0⟩ [] := by
    refine ⟨le_rfl, fun i _ hi => absurd hi (Nat.not_lt_zero i), ?_, ?_, fun _ => rfl⟩
    · rintro start ⟨⟩
    · rintro start ⟨⟩
  have hrun := hstart.zeroRun parts
  rw [List.nil_append, List.length_nil] at hrun
  have hbest := hrun.best
  unfold compressHextets
  simp only
  split
  · rename_i hlong
    right
    refine ⟨_, _, _, hlong, ?_, replaceRun_eq (by omega) hbest⟩
    generalize zeroRun 0 ⟨0, 0, none, 0⟩ parts = run at *
    have hzeros : (parts.drop run.bestStart).take run.bestLen =
        List.replicate run.bestLen ['0'] := by
      apply List.ext_getElem?
      intro i
      by_cases hi : i < run.bestLen
      · rw [List.getElem?_take_of_lt hi, List.getElem?_drop, List.getElem?_replicate_of_lt hi]
        exact hrun.bestZeros _ (by omega) (by omega)
      · rw [List.getElem?_eq_none (by rw [List.length_take]; omega),
          List.getElem?_eq_none (by rw [List.length_replicate]; omega)]
    rw [← hzeros, ← List.drop_drop, List.take_append_drop, List.take_append_drop]
  · exact .inl rfl

theorem mem_openEnd {parts : List PyStr} {part : PyStr} (h : part ∈ openEnd parts) :
    part = [] ∨ part ∈ parts := by
  unfold openEnd at h
  split at h
  · exact .inl (List.mem_singleton.mp h)
  · exact .inr h

/-- Compressing only adds empty parts, and leaves at least three. -/
theorem mem_compressHextets {parts : List PyStr} (hlen : parts.length = 8) :
    3 ≤ (compressHextets parts).length ∧
      ∀ part ∈ compressHextets parts, part = [] ∨ part ∈ parts := by
  rcases compressHextets_cases parts with heq | ⟨hi, lo, k, -, hparts, heq⟩
  · rw [heq]
    exact ⟨by omega, fun part hpart => .inr hpart⟩
  · rw [heq]
    constructor
    · have hhi := List.length_pos_of_ne_nil (openEnd_ne_nil hi)
      have hlo := List.length_pos_of_ne_nil (openEnd_ne_nil lo)
      rw [List.length_append, List.length_cons]
      omega
    · intro part hpart
      rw [hparts]
      rcases List.mem_append.mp hpart with hpart | hpart
      · exact (mem_openEnd hpart).imp_right (List.mem_append_left _)
      · rcases List.mem_cons.mp hpart with hpart | hpart
        · exact .inl hpart
        · exact (mem_openEnd hpart).imp_right fun h =>
            List.mem_append_right _ (List.mem_append_right _ h)

theorem hextets_eq (ip : Nat) : hextets ip = (baseDigits 65536 8 ip).map hexText := by
  unfold hextets baseDigits
  rw [List.map_map]
  rfl

theorem baseDigits_lt {ip n : Nat} (h : n ∈ baseDigits 65536 8 ip) : n < 65536 := by
  obtain ⟨i, -, rfl⟩ := List.mem_map.mp h
  exact Nat.mod_lt _ (by decide)

theorem isHextet_of_mem_hextets {ip : Nat} {part : PyStr} (h : part ∈ hextets ip) :
    IsHextet part := by
  obtain ⟨i, -, rfl⟩ := List.mem_map.mp h
  exact isHextet_hexText (Nat.mod_lt _ (by decide))

theorem length_hextets (ip : Nat) : (hextets ip).length = 8 := by simp [hextets]

/-- The characters of the number of a printed address. -/
def isAddressChar (c : Char) : Bool := c = ':' || inRange '0' '9' c || inRange 'a' 'f' c

theorem isAddressChar_digitChar : ∀ d < 16,
    isAddressChar (Nat.digitChar d) = true ∧ Nat.digitChar d ≠ ':' := by decide

theorem isAddressChar_of_mem_hextets {ip : Nat} {part : PyStr} (h : part ∈ hextets ip) {c : Char}
    (hc : c ∈ part) : isAddressChar c = true ∧ c ≠ ':' := by
  obtain ⟨i, -, rfl⟩ := List.mem_map.mp h
  obtain ⟨d, hd, rfl⟩ := mem_toDigits (by decide) hc
  exact isAddressChar_digitChar d hd

/-- `str(address)` of an IPv6 address without its scope. -/
def numberText (ip : Nat) : PyStr := [':'].intercalate (compressHextets (hextets ip))

theorem mem_intercalate {sep : Char} {parts : List PyStr} {c : Char}
    (h : c ∈ [sep].intercalate parts) : c = sep ∨ ∃ part ∈ parts, c ∈ part := by
  induction parts with
  | nil => cases h
  | cons part rest ih =>
      by_cases hrest : rest = []
      · subst hrest
        rw [List.intercalate_singleton] at h
        exact .inr ⟨part, List.mem_cons_self, h⟩
      · rw [List.intercalate_cons_of_ne_nil hrest] at h
        rcases List.mem_append.mp h with h | h
        · rcases List.mem_append.mp h with h | h
          · exact .inr ⟨part, List.mem_cons_self, h⟩
          · exact .inl (List.mem_singleton.mp h)
        · rcases ih h with h | ⟨part', hpart', h⟩
          · exact .inl h
          · exact .inr ⟨part', List.mem_cons_of_mem part hpart', h⟩

theorem sep_mem_intercalate {sep : Char} {parts : List PyStr} (h : 2 ≤ parts.length) :
    sep ∈ [sep].intercalate parts := by
  match parts with
  | part :: part' :: rest =>
      rw [List.intercalate_cons_cons]
      simp

theorem isAddressChar_of_mem_numberText {ip : Nat} {c : Char} (h : c ∈ numberText ip) :
    isAddressChar c = true := by
  rcases mem_intercalate h with rfl | ⟨part, hpart, hc⟩
  · rfl
  · rcases (mem_compressHextets (length_hextets ip)).2 part hpart with rfl | hpart
    · cases hc
    · exact (isAddressChar_of_mem_hextets hpart hc).1

theorem colon_mem_numberText (ip : Nat) : ':' ∈ numberText ip := by
  have hlen := (mem_compressHextets (length_hextets ip)).1
  exact sep_mem_intercalate (by omega)

theorem length_intercalate_le (sep : Char) {parts : List PyStr} {k : Nat}
    (h : ∀ part ∈ parts, part.length ≤ k) :
    ([sep].intercalate parts).length ≤ parts.length * (k + 1) := by
  induction parts with
  | nil => simp
  | cons part rest ih =>
      have hpart := h part List.mem_cons_self
      have hrest := ih fun part' hpart' => h part' (List.mem_cons_of_mem part hpart')
      by_cases hnil : rest = []
      · subst hnil
        rw [List.intercalate_singleton, List.length_singleton, Nat.one_mul]
        omega
      · rw [List.intercalate_cons_of_ne_nil hnil, List.length_append, List.length_append,
          List.length_singleton, List.length_cons, Nat.succ_mul]
        omega

theorem length_openEnd_le (parts : List PyStr) : (openEnd parts).length ≤ parts.length + 1 := by
  rw [length_openEnd]
  split <;> omega

theorem length_compressHextets {parts : List PyStr} (hlen : parts.length = 8) :
    (compressHextets parts).length ≤ 11 := by
  rcases compressHextets_cases parts with heq | ⟨hi, lo, k, -, hparts, heq⟩
  · rw [heq]
    omega
  · have hhi := length_openEnd_le hi
    have hlo := length_openEnd_le lo
    rw [hparts, List.length_append, List.length_append] at hlen
    rw [heq, List.length_append, List.length_cons]
    omega

theorem length_numberText (ip : Nat) : (numberText ip).length ≤ 55 := by
  have hparts := length_compressHextets (length_hextets ip)
  have hshort : ∀ part ∈ compressHextets (hextets ip), part.length ≤ 4 := by
    intro part hpart
    rcases (mem_compressHextets (length_hextets ip)).2 part hpart with rfl | hpart
    · exact Nat.zero_le 4
    · exact (isHextet_of_mem_hextets hpart).short
  have hlen := length_intercalate_le ':' hshort
  unfold numberText
  omega

theorem splitOn_numberText (ip : Nat) :
    (numberText ip).splitOn ':' = compressHextets (hextets ip) := by
  have hlen := (mem_compressHextets (length_hextets ip)).1
  refine List.splitOn_intercalate ':' ?_ ?_
  · intro part hpart hc
    rcases (mem_compressHextets (length_hextets ip)).2 part hpart with rfl | hpart
    · cases hc
    · exact (isAddressChar_of_mem_hextets hpart hc).2 rfl
  · intro hnil
    rw [hnil] at hlen
    simp at hlen

theorem unfoldSuffix_of_not_mem {parts : List PyStr} (hne : parts ≠ [])
    (h : ∀ part ∈ parts, '.' ∉ part) : unfoldSuffix parts = some parts := by
  have hlast := h _ (List.getLast_mem hne)
  unfold unfoldSuffix
  rw [List.getLast?_eq_some_getLast hne]
  exact if_neg hlast

/-- The compressed hextets of a number are read as it. -/
theorem readParts_compressHextets (ip : Nat) :
    readParts (compressHextets (hextets ip)) = some (ip % 65536 ^ 8) := by
  have hlen := length_hextets ip
  have hform : ∀ part ∈ hextets ip, IsHextet part := fun part => isHextet_of_mem_hextets
  rcases compressHextets_cases (hextets ip) with heq | ⟨hi, lo, k, hk, hparts, heq⟩
  · rw [heq, readParts_hextets hform hlen, hextets_eq, readHextets_hexText (fun n => baseDigits_lt),
      ofBase_baseDigits]
  · -- the numbers behind the two sides of the gap, and behind the gap
    rw [hextets_eq] at hparts
    obtain ⟨his, rest, hdigits, rfl, hrest⟩ := List.map_eq_append_iff.mp hparts
    obtain ⟨zeros, los, rfl, hzeros, rfl⟩ := List.map_eq_append_iff.mp hrest
    have hlt : ∀ n ∈ his ++ (zeros ++ los), n < 65536 := fun n hn => baseDigits_lt (hdigits ▸ hn)
    have hgap : zeros = List.replicate k 0 := by
      obtain ⟨hk, hall⟩ := List.eq_replicate_iff.mp hzeros
      refine List.eq_replicate_iff.mpr ⟨by rw [← hk, List.length_map], ?_⟩
      intro n hn
      have htext := hall (hexText n) (List.mem_map_of_mem hn)
      have hparse := parseHextet_hexText (hlt n (by simp [hn]))
      rw [htext] at hparse
      exact Option.some.inj (hparse.symm.trans (by decide : parseHextet ['0'] = some 0))
    have hsum : his.length + (k + los.length) = 8 := by
      have := congrArg List.length hdigits
      simpa [baseDigits, hgap] using this.symm
    have hnumber : ofBase 65536 (65536 ^ k * ofBase 65536 0 his) los = ip % 65536 ^ 8 := by
      rw [← ofBase_baseDigits, hdigits, ofBase_append, ofBase_append, hgap, ofBase_zeros]
    have hwidth : 8 - (his.length + los.length) = k := by omega
    rw [heq, readParts_gap]
    · rw [readHextets_hexText fun n hn => hlt n (by simp [hn]), Option.bind_some,
        readHextets_hexText fun n hn => hlt n (by simp [hn]), List.length_map, List.length_map,
        hwidth, hnumber]
    · intro part hpart
      obtain ⟨n, hn, rfl⟩ := List.mem_map.mp hpart
      exact isHextet_hexText (hlt n (by simp [hn]))
    · intro part hpart
      obtain ⟨n, hn, rfl⟩ := List.mem_map.mp hpart
      exact isHextet_hexText (hlt n (by simp [hn]))
    · rw [List.length_map, List.length_map]
      omega

/-- The printed number of an IPv6 address is read. -/
theorem parseV6Number_numberText (ip : Nat) :
    parseV6Number (numberText ip) = some (ip % 65536 ^ 8) := by
  obtain ⟨hlen, hmem⟩ := mem_compressHextets (length_hextets ip)
  have hne : compressHextets (hextets ip) ≠ [] := by
    intro hnil
    rw [hnil] at hlen
    simp at hlen
  have hdot : ∀ part ∈ compressHextets (hextets ip), '.' ∉ part := by
    intro part hpart hc
    rcases hmem part hpart with rfl | hpart
    · cases hc
    · exact absurd (isAddressChar_of_mem_hextets hpart hc).1 (by decide)
  unfold parseV6Number
  rw [splitOn_numberText, if_neg (by omega), unfoldSuffix_of_not_mem hne hdot, Option.bind_some]
  exact readParts_compressHextets ip

/-- The octets of an IPv4 address that was read. -/
theorem octets_of_parseV4 {s : PyStr} {ip : Nat} (h : parseV4 s = some ip) :
    (s.splitOn '.').length = 4 ∧ ∀ octet ∈ s.splitOn '.',
      octet ≠ [] ∧ octet.length ≤ 3 ∧ ∀ c ∈ octet, isAsciiDigit c = true := by
  have hoctets : ∀ octets : List PyStr, ∀ n,
      octets.foldlM (fun ip octet => (parseOctet octet).map (256 * ip + ·)) n = some ip →
      ∀ octet ∈ octets, octet ≠ [] ∧ octet.length ≤ 3 ∧ ∀ c ∈ octet, isAsciiDigit c = true := by
    intro octets
    induction octets with
    | nil => intro n _ octet hoctet; cases hoctet
    | cons octet rest ih =>
        intro n hn octet' hoctet'
        rw [List.foldlM_cons] at hn
        obtain ⟨n', hn', hrest⟩ := Option.bind_eq_some_iff.mp hn
        obtain ⟨value, hvalue, -⟩ := Option.map_eq_some_iff.mp hn'
        rcases List.mem_cons.mp hoctet' with rfl | hmem
        · unfold parseOctet at hvalue
          split at hvalue
          · cases hvalue
          · rename_i hdigits
            simp only [Bool.or_eq_true, Bool.not_eq_true', not_or, Bool.not_eq_false,
              List.isEmpty_iff, decide_eq_true_eq] at hdigits
            exact ⟨hdigits.1.1, Nat.not_lt.mp hdigits.2, List.all_eq_true.mp hdigits.1.2⟩
        · exact ih n' hrest octet' hmem
  unfold parseV4 at h
  simp only at h
  split at h
  · cases h
  · rename_i hlen
    exact ⟨Decidable.not_not.mp hlen, hoctets _ 0 h⟩

/-- An IPv4 address has only digits and dots. -/
theorem mem_of_parseV4 {s : PyStr} {ip : Nat} (h : parseV4 s = some ip) {c : Char} (hc : c ∈ s) :
    c = '.' ∨ isAsciiDigit c = true := by
  have hsplit : ['.'].intercalate (s.splitOn '.') = s := List.intercalate_splitOn '.'
  rw [← hsplit] at hc
  rcases mem_intercalate hc with hc | ⟨octet, hoctet, hc⟩
  · exact .inl hc
  · exact .inr (((octets_of_parseV4 h).2 octet hoctet).2.2 c hc)

/-- The text of an IPv4 address is short, and starts with a digit. -/
theorem shape_of_parseV4 {s : PyStr} {ip : Nat} (h : parseV4 s = some ip) :
    s.length ≤ 16 ∧ s.head?.any isAsciiDigit = true := by
  obtain ⟨hlen, hoctets⟩ := octets_of_parseV4 h
  have hsplit : ['.'].intercalate (s.splitOn '.') = s := List.intercalate_splitOn '.'
  constructor
  · have hle := length_intercalate_le '.' fun octet hoctet => (hoctets octet hoctet).2.1
    rw [hsplit, hlen] at hle
    exact hle
  · cases hparts : s.splitOn '.' with
    | nil =>
        rw [hparts] at hlen
        cases hlen
    | cons octet rest =>
        have hrest : rest ≠ [] := by
          rintro rfl
          rw [hparts] at hlen
          cases hlen
        obtain ⟨hne, -, hdigits⟩ := hoctets octet (by rw [hparts]; exact List.mem_cons_self)
        rw [← hsplit, hparts, List.intercalate_cons_of_ne_nil hrest]
        cases octet with
        | nil => exact absurd rfl hne
        | cons c octet => exact hdigits c List.mem_cons_self

/-- The scope of an address that was read. -/
structure IsScope (scopeId : PyStr) : Prop where
  nonempty : scopeId ≠ []
  noPercent : '%' ∉ scopeId
  noSlash : '/' ∉ scopeId

theorem isScope_of_parseV6 {s scopeId : PyStr} {ip : Nat}
    (h : parseV6 s = some (ip, some scopeId)) :
    IsScope scopeId ∧ scopeId <:+ s := by
  unfold parseV6 at h
  split at h
  · cases h
  · rename_i hslash
    have hsplit := List.dropWhile_suffix (l := s) (· ≠ '%')
    simp only at h
    split at h
    · simp at h
    · rename_i percent scope hdrop
      have hsuffix : scope <:+ s := (List.suffix_cons percent scope).trans (hdrop ▸ hsplit)
      split at h
      · cases h
      · rename_i hscope
        simp only [Bool.or_eq_true, decide_eq_true_eq, not_or, List.isEmpty_iff] at hscope
        obtain ⟨n, -, hn⟩ := Option.map_eq_some_iff.mp h
        cases Option.some.inj (Prod.mk.inj hn).2
        exact ⟨⟨hscope.1, hscope.2, fun hc => hslash (hsuffix.subset hc)⟩, hsuffix⟩

theorem str_v6 (ip : Nat) (scopeId : Option PyStr) : str (v6 ip scopeId) =
    numberText ip ++ (match scopeId with | none => [] | some scope => '%' :: scope) := by
  cases scopeId with
  | none => exact (List.append_nil _).symm
  | some scope => rfl

theorem parseV4_str_v6 (ip : Nat) (scopeId : Option PyStr) :
    parseV4 (str (v6 ip scopeId)) = none := by
  cases h : parseV4 (str (v6 ip scopeId)) with
  | none => rfl
  | some n =>
      rw [str_v6] at h
      have hcolon := mem_of_parseV4 h (List.mem_append_left _ (colon_mem_numberText ip))
      exact absurd hcolon (by decide)

theorem ne_percent_of_mem_numberText {ip : Nat} {c : Char} (h : c ∈ numberText ip) :
    decide (c ≠ '%') = true := by
  rw [decide_eq_true_eq]
  rintro rfl
  exact absurd (isAddressChar_of_mem_numberText h) (by decide)

theorem slash_notMem_numberText (ip : Nat) : '/' ∉ numberText ip :=
  fun h => absurd (isAddressChar_of_mem_numberText h) (by decide)

theorem parseV6_str (ip : Nat) {scopeId : Option PyStr} (h : ∀ scope ∈ scopeId, IsScope scope) :
    parseV6 (str (v6 ip scopeId)) = some (ip % 65536 ^ 8, scopeId) := by
  have hnumber := parseV6Number_numberText ip
  have hall : ∀ c ∈ numberText ip, decide (c ≠ '%') = true :=
    fun c => ne_percent_of_mem_numberText
  rw [str_v6]
  unfold parseV6
  cases scopeId with
  | none =>
      simp only [List.append_nil]
      rw [if_neg (slash_notMem_numberText ip), List.takeWhile_eq_self_iff.mpr hall,
        List.dropWhile_eq_nil_iff.mpr hall, hnumber]
      rfl
  | some scope =>
      have hscope := h scope rfl
      have hslash : '/' ∉ numberText ip ++ '%' :: scope := by
        intro hc
        rcases List.mem_append.mp hc with hc | hc
        · exact slash_notMem_numberText ip hc
        · exact hscope.noSlash (List.mem_of_ne_of_mem (by decide) hc)
      simp only
      rw [if_neg hslash, List.takeWhile_append_of_pos hall, List.dropWhile_append_of_pos hall,
        List.takeWhile_cons_of_neg (by decide), List.dropWhile_cons_of_neg (by decide),
        List.append_nil, hnumber]
      simp [hscope.nonempty, hscope.noPercent]

/-- The text an IPv6 address is printed as is that of the address. -/
theorem ipAddress_str_v6 (ip : Nat) {scopeId : Option PyStr}
    (h : ∀ scope ∈ scopeId, IsScope scope) :
    ipAddress (str (v6 ip scopeId)) = some (v6 (ip % 65536 ^ 8) scopeId) := by
  unfold ipAddress
  rw [parseV4_str_v6, parseV6_str ip h]
  rfl

/-- What is read as an IPv6 address has a scope as it should be, from its own text. -/
theorem isScope_of_ipAddress {s : PyStr} {ip : Nat} {scopeId : Option PyStr}
    (h : ipAddress s = some (v6 ip scopeId)) :
    ∀ scope ∈ scopeId, IsScope scope ∧ scope <:+ s := by
  intro scope hscope
  unfold ipAddress at h
  split at h
  · cases h
  · obtain ⟨⟨ip', scopeId'⟩, hparse, heq⟩ := Option.map_eq_some_iff.mp h
    cases heq
    cases Option.mem_def.mp hscope
    exact isScope_of_parseV6 hparse

/-- The text of an octet of an IPv4 address. -/
def octetText (ip i : Nat) : PyStr := Nat.toDigits 10 (ip / 256 ^ (3 - i) % 256)

theorem isAsciiDigit_digitChar : ∀ d < 10, isAsciiDigit (Nat.digitChar d) = true := by decide

theorem isAsciiDigit_of_mem_toDigits {n : Nat} {c : Char} (h : c ∈ Nat.toDigits 10 n) :
    isAsciiDigit c = true := by
  obtain ⟨d, hd, rfl⟩ := mem_toDigits (by decide) h
  exact isAsciiDigit_digitChar d hd

theorem isAsciiDigit_of_mem_octetText {ip i : Nat} {c : Char} (h : c ∈ octetText ip i) :
    isAsciiDigit c = true := isAsciiDigit_of_mem_toDigits h

theorem length_octetText (ip i : Nat) : (octetText ip i).length ≤ 3 := by
  have hlt : ip / 256 ^ (3 - i) % 256 < 256 := Nat.mod_lt _ (by decide)
  exact (Nat.length_toDigits_le_iff (by decide) (by decide)).mpr (by omega)

theorem str_v4 (ip : Nat) : str (v4 ip) = octetText ip 0 ++ '.' :: (octetText ip 1 ++
    '.' :: (octetText ip 2 ++ '.' :: octetText ip 3)) := by
  show ['.'].intercalate [octetText ip 0, octetText ip 1, octetText ip 2, octetText ip 3] = _
  simp [List.intercalate_cons_cons]

theorem parseOctet_toDigits : ∀ n < 256, parseOctet (Nat.toDigits 10 n) = some n := by
  decide +kernel

/-- A printed IPv4 address is read. -/
theorem parseV4_str (ip : Nat) : parseV4 (str (v4 ip)) = some (ip % 256 ^ 4) := by
  have htexts : (List.range 4).map (octetText ip) =
      (baseDigits 256 4 ip).map (Nat.toDigits 10) := by
    unfold baseDigits
    rw [List.map_map]
    rfl
  have hsplit : (str (v4 ip)).splitOn '.' = (List.range 4).map (octetText ip) := by
    apply List.splitOn_intercalate '.'
    · intro octet h hdot
      obtain ⟨i, -, rfl⟩ := List.mem_map.mp h
      exact absurd (isAsciiDigit_of_mem_octetText hdot) (by decide)
    · simp
  have hread : ((baseDigits 256 4 ip).map (Nat.toDigits 10)).map parseOctet =
      (baseDigits 256 4 ip).map some := by
    rw [List.map_map]
    apply List.map_congr_left
    intro n hn
    obtain ⟨i, -, rfl⟩ := List.mem_map.mp hn
    exact parseOctet_toDigits _ (Nat.mod_lt _ (by decide))
  unfold parseV4
  simp only
  rw [hsplit, if_neg (by simp), htexts, foldlM_ofBase hread, ofBase_baseDigits]

theorem digitChar_of_isAsciiDigit {c : Char} (h : isAsciiDigit c = true) :
    Nat.digitChar (c.toNat - '0'.toNat) = c := by
  have hrange : ∀ n < 58, 48 ≤ n → Nat.digitChar (n - '0'.toNat) = Char.ofNat n := by decide
  simp only [isAsciiDigit, inRange, Bool.and_eq_true, decide_eq_true_eq] at h
  have hc := hrange c.toNat (Nat.lt_succ_of_le h.2) h.1
  rwa [Char.ofNat_toNat] at hc

/-- Digits without a leading zero are how their number is written. -/
theorem toDigits_ofDigitChars {digits : List Char} (hne : digits ≠ [])
    (hdigits : ∀ c ∈ digits, isAsciiDigit c = true) (hhead : digits.head? ≠ some '0') :
    0 < Nat.ofDigitChars 10 digits 0 ∧ Nat.toDigits 10 (Nat.ofDigitChars 10 digits 0) = digits := by
  induction digits using List.reverseRecOn with
  | nil => exact absurd rfl hne
  | append_singleton digits c ih =>
      have hc := hdigits c (List.mem_append_right _ (List.mem_singleton_self c))
      have hchar := digitChar_of_isAsciiDigit hc
      have hlt : c.toNat - '0'.toNat < 10 := by
        simp only [isAsciiDigit, inRange, Bool.and_eq_true, decide_eq_true_eq] at hc
        show c.toNat - 48 < 10
        have hle : c.toNat ≤ 57 := hc.2
        omega
      have hlast : Nat.ofDigitChars 10 (digits ++ [c]) 0 =
          10 * Nat.ofDigitChars 10 digits 0 + (c.toNat - '0'.toNat) := by
        rw [Nat.ofDigitChars_append, Nat.ofDigitChars_cons, Nat.ofDigitChars_nil]
      rw [hlast]
      by_cases hempty : digits = []
      · subst hempty
        have hzero : c.toNat - '0'.toNat ≠ 0 := by
          intro hzero
          rw [hzero] at hchar
          exact hhead (congrArg some hchar.symm)
        rw [Nat.ofDigitChars_nil, Nat.mul_zero, Nat.zero_add, Nat.toDigits_of_lt_base hlt, hchar]
        exact ⟨Nat.pos_of_ne_zero hzero, rfl⟩
      · have hhead' : digits.head? ≠ some '0' := by
          rw [List.head?_append_of_ne_nil _ hempty] at hhead
          exact hhead
        obtain ⟨hpos, hih⟩ :=
          ih hempty (fun d hd => hdigits d (List.mem_append_left _ hd)) hhead'
        refine ⟨by omega, ?_⟩
        rw [Nat.toDigits_of_base_le (by decide) (by omega), Nat.mul_add_div (by decide),
          Nat.div_eq_of_lt hlt, Nat.add_zero, hih, Nat.mul_add_mod, Nat.mod_eq_of_lt hlt, hchar]

/-- An octet that is read is written as the text that was read. -/
theorem toDigits_of_parseOctet {octet : PyStr} {n : Nat} (h : parseOctet octet = some n) :
    n < 256 ∧ Nat.toDigits 10 n = octet := by
  unfold parseOctet at h
  split at h
  · cases h
  · rename_i hshape
    split at h
    · cases h
    · rename_i hzero
      simp only at h
      split at h
      · cases h
      · rename_i hlt
        cases h
        refine ⟨by omega, ?_⟩
        simp only [Bool.or_eq_true, Bool.not_eq_true', not_or, Bool.not_eq_false,
          List.isEmpty_iff, decide_eq_true_eq] at hshape
        simp only [Bool.and_eq_true, decide_eq_true_eq, not_and] at hzero
        by_cases hone : octet = ['0']
        · rw [hone]
          rfl
        · exact (toDigits_ofDigitChars hshape.1.1 (List.all_eq_true.mp hshape.1.2)
            (hzero hone)).2

/-- An IPv4 address that is read is printed as the text that was read. -/
theorem str_of_parseV4 {s : PyStr} {ip : Nat} (h : parseV4 s = some ip) : str (v4 ip) = s := by
  have hlen := (octets_of_parseV4 h).1
  unfold parseV4 at h
  simp only at h
  rw [if_neg (not_not.mpr hlen)] at h
  obtain ⟨ds, hds, rfl⟩ := map_read_of_foldlM h
  have hread : ∀ octet ∈ s.splitOn '.', ∀ d, parseOctet octet = some d →
      d < 256 ∧ Nat.toDigits 10 d = octet := fun _ _ _ h => toDigits_of_parseOctet h
  have hdslen : ds.length = 4 := by
    have hcongr := congrArg List.length hds
    rw [List.length_map, List.length_map] at hcongr
    omega
  obtain ⟨hlt, htexts⟩ := digits_of_read hread hds
  have hdigits := baseDigits_ofBase hlt
  rw [hdslen] at hdigits
  show ['.'].intercalate ((List.range 4).map fun i =>
    Nat.toDigits 10 (ofBase 256 0 ds / 256 ^ (4 - 1 - i) % 256)) = s
  have hmap : (List.range 4).map (fun i =>
      Nat.toDigits 10 (ofBase 256 0 ds / 256 ^ (4 - 1 - i) % 256)) =
      (baseDigits 256 4 (ofBase 256 0 ds)).map (Nat.toDigits 10) := by
    unfold baseDigits
    rw [List.map_map]
    rfl
  rw [hmap, hdigits, htexts]
  exact List.intercalate_splitOn '.'

/-- A printed IPv4 address is a digit, and then digits and dots. -/
theorem str_v4_eq_cons (ip : Nat) : ∃ d rest, str (v4 ip) = d :: rest ∧ isAsciiDigit d = true ∧
    (∀ c ∈ rest, c = '.' ∨ isAsciiDigit c = true) ∧ rest.length ≤ 14 := by
  have hne : octetText ip 0 ≠ [] := Nat.toDigits_ne_nil
  obtain ⟨d, octet, hoctet⟩ := List.exists_cons_of_ne_nil hne
  have hdigit : ∀ c ∈ octetText ip 0, isAsciiDigit c = true :=
    fun c => isAsciiDigit_of_mem_octetText
  rw [hoctet] at hdigit
  have h0 := length_octetText ip 0
  have h1 := length_octetText ip 1
  have h2 := length_octetText ip 2
  have h3 := length_octetText ip 3
  rw [hoctet, List.length_cons] at h0
  refine ⟨d, _, by rw [str_v4, hoctet, List.cons_append], hdigit d List.mem_cons_self, ?_, ?_⟩
  · intro c hc
    simp only [List.mem_append, List.mem_cons] at hc
    rcases hc with hc | hc | hc | hc | hc | hc | hc
    · exact .inr (hdigit c (List.mem_cons_of_mem d hc))
    · exact .inl hc
    · exact .inr (isAsciiDigit_of_mem_octetText hc)
    · exact .inl hc
    · exact .inr (isAsciiDigit_of_mem_octetText hc)
    · exact .inl hc
    · exact .inr (isAsciiDigit_of_mem_octetText hc)
  · simp only [List.length_append, List.length_cons]
    omega

/-! ## What is read is in range -/

/-- Hextets on the two sides of a gap that is wide enough for both. -/
theorem lt_of_gap {parts : List PyStr} {hi lo n ip : Nat} (hroom : hi + lo < 8)
    (hn : readHextets 0 (parts.take hi) = some n)
    (h : readHextets (65536 ^ (8 - (hi + lo)) * n) (parts.drop (parts.length - lo)) = some ip) :
    ip < 65536 ^ 8 := by
  have htake : (parts.take hi).length ≤ hi := List.length_take_le hi parts
  have hdrop : (parts.drop (parts.length - lo)).length ≤ lo := by
    rw [List.length_drop]
    omega
  have hpos : 0 < 65536 ^ (8 - (hi + lo)) := Nat.pow_pos (by decide)
  have hhigh : n + 1 ≤ 65536 ^ hi := by
    have hlt := readHextets_lt hn
    rw [Nat.zero_add, Nat.one_mul] at hlt
    exact hlt.trans_le (Nat.pow_le_pow_right (by decide) htake)
  calc ip < (65536 ^ (8 - (hi + lo)) * n + 1) * 65536 ^ (parts.drop (parts.length - lo)).length :=
        readHextets_lt h
    _ ≤ (65536 ^ (8 - (hi + lo)) * (n + 1)) * 65536 ^ lo := by
        apply Nat.mul_le_mul
        · rw [Nat.mul_succ]
          omega
        · exact Nat.pow_le_pow_right (by decide) hdrop
    _ ≤ (65536 ^ (8 - (hi + lo)) * 65536 ^ hi) * 65536 ^ lo :=
        Nat.mul_le_mul_right _ (Nat.mul_le_mul_left _ hhigh)
    _ = 65536 ^ 8 := by
        rw [← Nat.pow_add, ← Nat.pow_add]
        congr 1
        omega

theorem readParts_lt {parts : List PyStr} {ip : Nat} (h : readParts parts = some ip) :
    ip < 65536 ^ 8 := by
  unfold readParts at h
  simp only at h
  split at h
  · cases h
  · split at h
    · split at h
      · cases h
      · rename_i hends
        simp only [Bool.or_eq_true, decide_eq_true_eq, not_or] at hends
        have hlt := readHextets_lt h
        rw [Decidable.not_not.mp hends.1.1] at hlt
        simpa using hlt
    · split at h
      · generalize (parts.tail.dropLast.idxOf [] + 1) = skip at h
        generalize (if parts.head? = some [] then skip - 1 else skip) = hi at h
        generalize (if parts.getLast? = some [] then parts.length - skip - 1 - 1
          else parts.length - skip - 1) = lo at h
        split at h
        · cases h
        · split at h
          · cases h
          · split at h
            · cases h
            · rename_i hroom
              obtain ⟨n, hn, hrest⟩ := Option.bind_eq_some_iff.mp h
              exact lt_of_gap (Nat.not_le.mp hroom) hn hrest
      · cases h

theorem parseV6Number_lt {s : PyStr} {ip : Nat} (h : parseV6Number s = some ip) :
    ip < 65536 ^ 8 := by
  unfold parseV6Number at h
  simp only at h
  split at h
  · cases h
  · obtain ⟨parts, -, hread⟩ := Option.bind_eq_some_iff.mp h
    exact readParts_lt hread

theorem parseV6_lt {s : PyStr} {ip : Nat} {scopeId : Option PyStr}
    (h : parseV6 s = some (ip, scopeId)) : ip < 65536 ^ 8 := by
  unfold parseV6 at h
  split at h
  · cases h
  · simp only at h
    split at h
    · obtain ⟨n, hn, heq⟩ := Option.map_eq_some_iff.mp h
      cases heq
      exact parseV6Number_lt hn
    · split at h
      · cases h
      · obtain ⟨n, hn, heq⟩ := Option.map_eq_some_iff.mp h
        cases heq
        exact parseV6Number_lt hn

theorem parseV4_lt {s : PyStr} {ip : Nat} (h : parseV4 s = some ip) : ip < 256 ^ 4 := by
  have hoctet : ∀ octet ∈ s.splitOn '.', ∀ n, parseOctet octet = some n → n < 256 := by
    intro octet _ n hn
    unfold parseOctet at hn
    split at hn
    · cases hn
    · split at hn
      · cases hn
      · simp only at hn
        split at hn
        · cases hn
        · cases hn
          omega
  have hlen := (octets_of_parseV4 h).1
  unfold parseV4 at h
  simp only at h
  rw [if_neg (not_not.mpr hlen)] at h
  have hlt := lt_of_foldlM hoctet h
  rw [hlen] at hlt
  simpa using hlt

/-- **A printed address is read as the address it was printed from**, if that was read
from a text itself. -/
theorem ipAddress_str {s : PyStr} {address : IpAddress} (h : ipAddress s = some address) :
    ipAddress (str address) = some address := by
  cases address with
  | v4 ip =>
      have hlt : ip < 256 ^ 4 := by
        unfold ipAddress at h
        split at h
        · rename_i hparse
          cases h
          exact parseV4_lt hparse
        · obtain ⟨_, -, hv6⟩ := Option.map_eq_some_iff.mp h
          cases hv6
      unfold ipAddress
      rw [parseV4_str, Nat.mod_eq_of_lt hlt]
  | v6 ip scopeId =>
      have hlt : ip < 65536 ^ 8 := by
        unfold ipAddress at h
        split at h
        · cases h
        · obtain ⟨_, hparse, hv6⟩ := Option.map_eq_some_iff.mp h
          cases hv6
          exact parseV6_lt hparse
      rw [ipAddress_str_v6 ip fun scope hs => (isScope_of_ipAddress h scope hs).1,
        Nat.mod_eq_of_lt hlt]

end SrxProbe.Lib.IpAddress
