import SrxProbe.Lib.Py

/-!
# Text

The character classes and the string methods that decide where a line, a token
or a number ends.
-/

namespace SrxProbe.Lib

/-! ## Character classes -/

/-- `[lo-hi]` in a pattern. -/
def inRange (lo hi c : Char) : Bool := lo.toNat ≤ c.toNat && c.toNat ≤ hi.toNat

/-- `str.isspace` on one character; also `\s` in a pattern. -/
def isSpace (c : Char) : Bool :=
  let n := c.toNat
  (0x09 ≤ n && n ≤ 0x0D) || (0x1C ≤ n && n ≤ 0x20) || n = 0x85 || n = 0xA0 || n = 0x1680 ||
    (0x2000 ≤ n && n ≤ 0x200A) || n = 0x2028 || n = 0x2029 || n = 0x202F || n = 0x205F ||
    n = 0x3000

/-- The boundaries of `str.splitlines`; CR LF counts as one. -/
def isLineBreak (c : Char) : Bool :=
  let n := c.toNat
  (0x0A ≤ n && n ≤ 0x0D) || (0x1C ≤ n && n ≤ 0x1E) || n = 0x85 || n = 0x2028 || n = 0x2029

/-- The zeros of the decimal digits, each followed by its digits 1 to 9 (Unicode 15). -/
def decimalZeros : List Nat :=
  [0x30, 0x660, 0x6F0, 0x7C0, 0x966, 0x9E6, 0xA66, 0xAE6, 0xB66, 0xBE6, 0xC66, 0xCE6, 0xD66,
   0xDE6, 0xE50, 0xED0, 0xF20, 0x1040, 0x1090, 0x17E0, 0x1810, 0x1946, 0x19D0, 0x1A80, 0x1A90,
   0x1B50, 0x1BB0, 0x1C40, 0x1C50, 0xA620, 0xA8D0, 0xA900, 0xA9D0, 0xA9F0, 0xAA50, 0xABF0,
   0xFF10, 0x104A0, 0x10D30, 0x11066, 0x110F0, 0x11136, 0x111D0, 0x112F0, 0x11450, 0x114D0,
   0x11650, 0x116C0, 0x11730, 0x118E0, 0x11950, 0x11C50, 0x11D50, 0x11DA0, 0x11F50, 0x16A60,
   0x16AC0, 0x16B50, 0x1D7CE, 0x1D7D8, 0x1D7E2, 0x1D7EC, 0x1D7F6, 0x1E140, 0x1E2F0, 0x1E4F0,
   0x1E950, 0x1FBF0]

/-- The value of a decimal digit of any script. -/
def digitValue (c : Char) : Option Nat :=
  decimalZeros.findSome? fun first =>
    if first ≤ c.toNat ∧ c.toNat < first + 10 then some (c.toNat - first) else none

/-- `str.isdecimal` on one character; also `\d` in a pattern. -/
def isDecimal (c : Char) : Bool := (digitValue c).isSome

theorem isSpace_of_isLineBreak {c : Char} (h : isLineBreak c = true) : isSpace c = true := by
  simp only [isLineBreak, isSpace, Bool.or_eq_true, Bool.and_eq_true, decide_eq_true_eq] at h ⊢
  omega

/-! ## Stripping -/

/-- `s.strip()`. -/
def strip (s : PyStr) : PyStr := (s.dropWhile isSpace).rdropWhile isSpace

/-- Every character of the text is white space. -/
def Blank (s : PyStr) : Prop := ∀ c ∈ s, isSpace c = true

theorem Blank.append {s t : PyStr} (hs : Blank s) (ht : Blank t) : Blank (s ++ t) := by
  intro c hc
  rcases List.mem_append.mp hc with hc | hc
  · exact hs c hc
  · exact ht c hc

theorem strip_of_blank {s : PyStr} (h : Blank s) : strip s = [] := by
  rw [strip, List.dropWhile_eq_nil_iff.mpr h]
  rfl

/-- A text is cut in one way at the first of a character. -/
theorem cut_unique {c : Char} {s s' t t' : PyStr} (hs : c ∉ s) (hs' : c ∉ s')
    (ht : t.head? = some c) (ht' : t'.head? = some c) (h : s ++ t = s' ++ t') :
    s = s' ∧ t = t' := by
  have htake : ∀ {u v : PyStr}, c ∉ u → v.head? = some c →
      (u ++ v).takeWhile (fun d => decide (d ≠ c)) = u := by
    intro u v hu hv
    obtain ⟨v', rfl⟩ := List.head?_eq_some_iff.mp hv
    have hchars : ∀ d ∈ u, decide (d ≠ c) = true := by
      intro d hd
      exact decide_eq_true (ne_of_mem_of_not_mem hd hu)
    rw [List.takeWhile_append_of_pos hchars, List.takeWhile_cons_of_neg (by simp),
      List.append_nil]
  have hfirst : s = s' := by
    rw [← htake hs ht, h, htake hs' ht']
  rw [hfirst] at h
  exact ⟨hfirst, List.append_cancel_left h⟩

/-- Stripping takes white space from both ends. -/
theorem exists_strip (s : PyStr) :
    ∃ lead trail, s = lead ++ (strip s ++ trail) ∧ Blank lead ∧ Blank trail := by
  refine ⟨s.takeWhile isSpace, (s.dropWhile isSpace).rtakeWhile isSpace, ?_, ?_, ?_⟩
  · rw [strip, List.rdropWhile_append_rtakeWhile, List.takeWhile_append_dropWhile]
  · exact fun c hc => List.mem_takeWhile_imp hc
  · exact fun c hc => List.mem_rtakeWhile_imp hc

theorem dropWhile_append_of_blank {lead : PyStr} (h : Blank lead) (s : PyStr) :
    (lead ++ s).dropWhile isSpace = s.dropWhile isSpace := by
  rw [List.dropWhile_append, List.dropWhile_eq_nil_iff.mpr h]
  rfl

theorem rdropWhile_append_of_blank {trail : PyStr} (h : Blank trail) (s : PyStr) :
    (s ++ trail).rdropWhile isSpace = s.rdropWhile isSpace := by
  induction trail using List.reverseRecOn with
  | nil => rw [List.append_nil]
  | append_singleton trail c ih =>
      rw [← List.append_assoc, List.rdropWhile_concat_pos _ _ _ (h c (by simp))]
      exact ih fun d hd => h d (List.mem_append_left _ hd)

/-- A text with something to see in it keeps what stands before it. -/
theorem rdropWhile_append_of_not_blank {t : PyStr} (h : ¬ Blank t) (s : PyStr) :
    (s ++ t).rdropWhile isSpace = s ++ t.rdropWhile isSpace := by
  have hne : t.reverse.dropWhile isSpace ≠ [] := by
    intro hnil
    exact h fun c hc => List.dropWhile_eq_nil_iff.mp hnil c (List.mem_reverse.mpr hc)
  rw [List.rdropWhile, List.rdropWhile, List.reverse_append, List.dropWhile_append,
    List.isEmpty_eq_false_iff.mpr hne, if_neg Bool.false_ne_true, List.reverse_append,
    List.reverse_reverse]

theorem rdropWhile_ne_nil_of_not_blank {t : PyStr} (h : ¬ Blank t) :
    t.rdropWhile isSpace ≠ [] := by
  intro hnil
  exact h fun c hc => List.rdropWhile_eq_nil_iff.mp hnil c hc

theorem rdropWhile_of_solid {t : PyStr} (h : ∀ c ∈ t, isSpace c = false) :
    t.rdropWhile isSpace = t := by
  rw [List.rdropWhile_eq_self_iff]
  intro hne
  rw [h _ (List.getLast_mem hne)]
  exact Bool.false_ne_true

/-- A text that ends in something to see keeps its end. -/
theorem rdropWhile_append_of_getLast {s : PyStr}
    (h : ∀ c, s.getLast? = some c → isSpace c = false) (t : PyStr) :
    (s ++ t).rdropWhile isSpace = s ++ t.rdropWhile isSpace := by
  by_cases hblank : Blank t
  · rw [rdropWhile_append_of_blank hblank, List.rdropWhile_eq_nil_iff.mpr hblank,
      List.append_nil, List.rdropWhile_eq_self_iff]
    intro hne
    rw [h _ (List.getLast?_eq_some_getLast hne)]
    exact Bool.false_ne_true
  · exact rdropWhile_append_of_not_blank hblank s

theorem not_mem_strip {s : PyStr} {c : Char} (h : c ∉ s) : c ∉ strip s := by
  intro hmem
  have hdrop := (List.rdropWhile_prefix isSpace (s.dropWhile isSpace)).subset hmem
  exact h ((List.dropWhile_suffix isSpace).subset hdrop)

/-- A stripped text ends in something to see. -/
theorem getLast_strip {s : PyStr} {c : Char} (h : (strip s).getLast? = some c) :
    isSpace c = false := by
  have hend : (strip s).rdropWhile isSpace = strip s := List.rdropWhile_idempotent _ _
  have hne : strip s ≠ [] := fun hnil => by rw [hnil] at h; cases h
  have hlast := List.rdropWhile_eq_self_iff.mp hend hne
  rw [List.getLast?_eq_some_getLast hne] at h
  rw [← Option.some.inj h]
  exact Bool.not_eq_true _ ▸ hlast

/-- What is stripped of the beginning of a text is the beginning of the stripped text. -/
theorem strip_prefix_strip {s t : PyStr} (h : s <+: t) : strip s <+: strip t := by
  obtain ⟨u, rfl⟩ := h
  by_cases hblank : Blank s
  · rw [strip_of_blank hblank]
    exact List.nil_prefix
  have hne : s.dropWhile isSpace ≠ [] := fun hnil => hblank (List.dropWhile_eq_nil_iff.mp hnil)
  have hdrop : (s ++ u).dropWhile isSpace = s.dropWhile isSpace ++ u := by
    rw [List.dropWhile_append, List.isEmpty_eq_false_iff.mpr hne, if_neg Bool.false_ne_true]
  have hsplit : strip s ++ (s.dropWhile isSpace).rtakeWhile isSpace = s.dropWhile isSpace :=
    List.rdropWhile_append_rtakeWhile
  have hlast : ∀ c, (strip s).getLast? = some c → isSpace c = false := fun c hc => getLast_strip hc
  rw [strip.eq_1 (s ++ u), hdrop, ← hsplit, List.append_assoc, rdropWhile_append_of_getLast hlast]
  exact List.prefix_append _ _

/-- A stripped text is still found between white space. -/
theorem strip_between {lead trail : PyStr} (hlead : Blank lead) (htrail : Blank trail) (s : PyStr) :
    strip (lead ++ (strip s ++ trail)) = strip s := by
  have hsolid : ∀ c, (strip s).head? = some c → isSpace c = false := by
    intro c hc
    have hprefix : strip s <+: s.dropWhile isSpace := List.rdropWhile_prefix _ _
    obtain ⟨t, ht⟩ := List.head?_eq_some_iff.mp hc
    rw [ht] at hprefix
    obtain ⟨u, hu⟩ := hprefix
    have hnot := List.head?_dropWhile_not isSpace s
    rw [← hu] at hnot
    exact hnot
  have hend : (strip s).rdropWhile isSpace = strip s := List.rdropWhile_idempotent _ _
  rw [strip, dropWhile_append_of_blank hlead]
  cases hs : strip s with
  | nil =>
      rw [List.nil_append, List.dropWhile_eq_nil_iff.mpr htrail]
      rfl
  | cons c t =>
      have hc := hsolid c (by rw [hs]; rfl)
      rw [List.cons_append, List.dropWhile_cons_of_neg (by simp [hc]), ← List.cons_append, ← hs,
        rdropWhile_append_of_blank htrail, hend]

/-! ## Splitting into lines -/

/-- `splitlines` behind the characters `line` (last first) of an unfinished line. -/
def splitlinesFrom (line : List Char) : List Char → List PyStr
  | [] => if line.isEmpty then [] else [line.reverse]
  | '\r' :: '\n' :: rest => line.reverse :: splitlinesFrom [] rest
  | c :: rest =>
      if isLineBreak c then line.reverse :: splitlinesFrom [] rest
      else splitlinesFrom (c :: line) rest

def splitlines (s : PyStr) : List PyStr := splitlinesFrom [] s

theorem splitlinesFrom_cons {line rest : List Char} {c : Char} (hc : c ≠ '\r') :
    splitlinesFrom line (c :: rest) =
      if isLineBreak c then line.reverse :: splitlinesFrom [] rest
      else splitlinesFrom (c :: line) rest := by
  rw [splitlinesFrom]
  intro rest' h
  cases h
  exact absurd rfl hc

/-- A line has no boundary in it. -/
theorem not_isLineBreak_of_mem_splitlines {line text l : List Char}
    (h : l ∈ splitlinesFrom line text) (hline : ∀ c ∈ line, isLineBreak c = false) :
    ∀ c ∈ l, isLineBreak c = false := by
  have hreverse : ∀ c ∈ line.reverse, isLineBreak c = false :=
    fun c hc => hline c (List.mem_reverse.mp hc)
  fun_induction splitlinesFrom line text with
  | case1 line hempty => cases h
  | case2 line hempty =>
      rw [List.mem_singleton.mp h]
      exact hreverse
  | case3 line rest ih =>
      rcases List.mem_cons.mp h with h | h
      · rw [h]
        exact hreverse
      · exact ih h (fun _ hc => by cases hc) fun _ hc => by cases hc
  | case4 line c rest _ hbreak ih =>
      rcases List.mem_cons.mp h with h | h
      · rw [h]
        exact hreverse
      · exact ih h (fun _ hc => by cases hc) fun _ hc => by cases hc
  | case5 line c rest _ hbreak ih =>
      have hcons : ∀ d ∈ c :: line, isLineBreak d = false := by
        intro d hd
        rcases List.mem_cons.mp hd with rfl | hd
        · simpa using hbreak
        · exact hline d hd
      exact ih h hcons fun d hd => hcons d (List.mem_reverse.mp hd)

/-- Text without a boundary goes on the unfinished line. -/
theorem splitlinesFrom_solid {core : List Char} (hcore : ∀ c ∈ core, isLineBreak c = false)
    (line rest : List Char) :
    splitlinesFrom line (core ++ rest) = splitlinesFrom (core.reverse ++ line) rest := by
  induction core generalizing line with
  | nil => rfl
  | cons c core ih =>
      have hc := hcore c List.mem_cons_self
      have hcr : c ≠ '\r' := by
        rintro rfl
        cases hc
      rw [List.cons_append, splitlinesFrom_cons hcr, hc, if_neg Bool.false_ne_true,
        ih fun d hd => hcore d (List.mem_cons_of_mem c hd), List.reverse_cons, List.append_assoc]
      rfl

theorem mem_of_mem_splitlines {line text l : List Char} (h : l ∈ splitlinesFrom line text) :
    ∀ c ∈ l, c ∈ line ∨ c ∈ text := by
  have hreverse : l = line.reverse → ∀ c ∈ l, c ∈ line ∨ c ∈ text := by
    rintro rfl c hc
    exact .inl (List.mem_reverse.mp hc)
  fun_induction splitlinesFrom line text with
  | case1 line hempty => cases h
  | case2 line hempty => exact hreverse (List.mem_singleton.mp h)
  | case3 line rest ih =>
      rcases List.mem_cons.mp h with h | h
      · exact hreverse h
      · intro c hc
        rcases ih h (fun heq c hc => by rw [heq] at hc; cases hc) c hc with hmem | hmem
        · cases hmem
        · exact .inr (List.mem_cons_of_mem _ (List.mem_cons_of_mem _ hmem))
  | case4 line d rest _ hbreak ih =>
      rcases List.mem_cons.mp h with h | h
      · exact hreverse h
      · intro c hc
        rcases ih h (fun heq c hc => by rw [heq] at hc; cases hc) c hc with hmem | hmem
        · cases hmem
        · exact .inr (List.mem_cons_of_mem _ hmem)
  | case5 line d rest _ hbreak ih =>
      intro c hc
      rcases ih h (fun heq c hc => .inl (List.mem_reverse.mp (heq ▸ hc))) c hc with hmem | hmem
      · rcases List.mem_cons.mp hmem with rfl | hmem
        · exact .inr List.mem_cons_self
        · exact .inl hmem
      · exact .inr (List.mem_cons_of_mem _ hmem)

theorem blank_of_mem_splitlines {line text l : List Char} (h : l ∈ splitlinesFrom line text)
    (hline : Blank line) (htext : Blank text) : Blank l := by
  intro c hc
  rcases mem_of_mem_splitlines h c hc with hmem | hmem
  · exact hline c hmem
  · exact htext c hmem

/-- A line feed ends a line, and may leave an empty one. -/
theorem splitlinesFrom_lineFeed (line text rest : List Char) :
    ∃ blanks, splitlinesFrom line (text ++ '\n' :: rest) =
        splitlinesFrom line text ++ blanks ++ splitlinesFrom [] rest ∧ ∀ l ∈ blanks, l = [] := by
  have hfeed : ∀ line, splitlinesFrom line ('\n' :: rest) =
      line.reverse :: splitlinesFrom [] rest := fun line => splitlinesFrom_cons (by decide)
  fun_induction splitlinesFrom line text with
  | case1 line hempty =>
      refine ⟨[[]], ?_, fun l hl => List.mem_singleton.mp hl⟩
      rw [List.nil_append, hfeed, List.isEmpty_iff.mp hempty]
      rfl
  | case2 line hempty =>
      refine ⟨[], ?_, nofun⟩
      rw [List.nil_append, hfeed]
      rfl
  | case3 line rest' ih =>
      obtain ⟨blanks, hlines, hblanks⟩ := ih
      refine ⟨blanks, ?_, hblanks⟩
      show line.reverse :: splitlinesFrom [] (rest' ++ '\n' :: rest) = _
      rw [hlines]
      rfl
  | case4 line c rest' hpair hbreak ih =>
      cases hrest : rest' with
      | nil =>
          refine ⟨if c = '\r' then [] else [[]], ?_, ?_⟩
          · by_cases hc : c = '\r'
            · subst hc
              rfl
            · rw [if_neg hc, List.cons_append, splitlinesFrom_cons hc, hbreak, if_pos rfl,
                List.nil_append, hfeed]
              rfl
          · intro l hl
            split at hl
            · cases hl
            · exact List.mem_singleton.mp hl
      | cons d rest'' =>
          obtain ⟨blanks, hlines, hblanks⟩ := ih
          refine ⟨blanks, ?_, hblanks⟩
          have hnext : ∀ r, c = '\r' → d :: rest'' ++ '\n' :: rest = '\n' :: r → False := by
            intro r hc hd
            exact hpair rest'' hc (by rw [hrest, (List.cons.inj hd).1])
          rw [List.cons_append, splitlinesFrom.eq_3 line c _ hnext, hbreak, if_pos rfl, ← hrest,
            hlines]
          rfl
  | case5 line c rest' hpair hbreak ih =>
      obtain ⟨blanks, hlines, hblanks⟩ := ih
      refine ⟨blanks, ?_, hblanks⟩
      have hc : c ≠ '\r' := by
        rintro rfl
        exact hbreak rfl
      rw [List.cons_append, splitlinesFrom_cons hc, if_neg hbreak, hlines]

/-- White space before a text makes blank lines, and a blank beginning of the next. -/
theorem splitlinesFrom_lead {lead line : List Char} (hlead : Blank lead) (hline : Blank line)
    (hcr : '\r' ∉ lead) (rest : List Char) :
    ∃ before line', splitlinesFrom line (lead ++ rest) = before ++ splitlinesFrom line' rest ∧
      (∀ l ∈ before, Blank l) ∧ Blank line' := by
  induction lead generalizing line with
  | nil => exact ⟨[], line, rfl, nofun, hline⟩
  | cons c lead ih =>
      have hc : c ≠ '\r' := fun h => hcr (h ▸ List.mem_cons_self)
      have hlead' : Blank lead := fun d hd => hlead d (List.mem_cons_of_mem c hd)
      have hcr' : '\r' ∉ lead := fun h => hcr (List.mem_cons_of_mem c h)
      rw [List.cons_append, splitlinesFrom_cons hc]
      split
      · have hnil : Blank [] := nofun
        obtain ⟨before, line', heq, hbefore, hline'⟩ := ih hlead' hnil hcr'
        refine ⟨line.reverse :: before, line', by rw [heq]; rfl, ?_, hline'⟩
        intro l hl
        rcases List.mem_cons.mp hl with rfl | hl
        · exact fun d hd => hline d (List.mem_reverse.mp hd)
        · exact hbefore l hl
      · refine ih hlead' ?_ hcr'
        intro d hd
        rcases List.mem_cons.mp hd with rfl | hd
        · exact hlead d List.mem_cons_self
        · exact hline d hd

/-- White space behind an unfinished line ends it, and makes blank lines. -/
theorem splitlinesFrom_trail {line trail : List Char} (htrail : Blank trail) (hne : line ≠ []) :
    ∃ gap after, splitlinesFrom line trail = (line.reverse ++ gap) :: after ∧ Blank gap ∧
      ∀ l ∈ after, Blank l := by
  have hnil : Blank [] := nofun
  fun_induction splitlinesFrom line trail with
  | case1 line hempty => exact absurd (List.isEmpty_iff.mp hempty) hne
  | case2 line hempty => exact ⟨[], [], by rw [List.append_nil], hnil, nofun⟩
  | case3 line rest ih =>
      have hrest : Blank rest :=
        fun c hc => htrail c (List.mem_cons_of_mem _ (List.mem_cons_of_mem _ hc))
      refine ⟨[], splitlinesFrom [] rest, by rw [List.append_nil], hnil, ?_⟩
      exact fun l hl => blank_of_mem_splitlines hl hnil hrest
  | case4 line c rest _ hbreak ih =>
      have hrest : Blank rest := fun c hc => htrail c (List.mem_cons_of_mem _ hc)
      refine ⟨[], splitlinesFrom [] rest, by rw [List.append_nil], hnil, ?_⟩
      exact fun l hl => blank_of_mem_splitlines hl hnil hrest
  | case5 line c rest _ hbreak ih =>
      have hrest : Blank rest := fun c hc => htrail c (List.mem_cons_of_mem _ hc)
      obtain ⟨gap, after, heq, hgap, hafter⟩ := ih hrest (List.cons_ne_nil c line)
      refine ⟨c :: gap, after, ?_, ?_, hafter⟩
      · rw [heq, List.reverse_cons, List.append_assoc]
        rfl
      · intro d hd
        rcases List.mem_cons.mp hd with rfl | hd
        · exact htrail d List.mem_cons_self
        · exact hgap d hd

/-- A text without a boundary, in white space: one line has it all, the others are
blank. -/
theorem splitlines_between {lead core trail : List Char} (hlead : Blank lead)
    (htrail : Blank trail) (hcr : '\r' ∉ lead) (hcore : ∀ c ∈ core, isLineBreak c = false)
    (hne : core ≠ []) :
    ∃ before gap gap' after, splitlines (lead ++ (core ++ trail)) =
        before ++ (gap ++ (core ++ gap')) :: after ∧
      Blank gap ∧ Blank gap' ∧ (∀ l ∈ before, Blank l) ∧ ∀ l ∈ after, Blank l := by
  have hnil : Blank [] := nofun
  obtain ⟨before, line, hbefore, hblank, hline⟩ :=
    splitlinesFrom_lead hlead hnil hcr (core ++ trail)
  have hne' : core.reverse ++ line ≠ [] := by simp [hne]
  obtain ⟨gap', after, hafter, hgap', hblank'⟩ := splitlinesFrom_trail htrail hne'
  refine ⟨before, line.reverse, gap', after, ?_, ?_, hgap', hblank, hblank'⟩
  · rw [splitlines, hbefore, splitlinesFrom_solid hcore, hafter, List.reverse_append,
      List.reverse_reverse, List.append_assoc]
  · exact fun c hc => hline c (List.mem_reverse.mp hc)

/-! ## Numbers -/

/-- The digits of a decimal literal, with single underscores between them. -/
def intDigits : PyStr → Option (List Nat)
  | [] => none
  | [c] => (digitValue c).map ([·])
  | c :: '_' :: rest => do
      let d ← digitValue c
      let ds ← intDigits rest
      some (d :: ds)
  | c :: rest => do
      let d ← digitValue c
      let ds ← intDigits rest
      some (d :: ds)

/-- The most digits `int` converts (`sys.int_info.default_max_str_digits`). -/
def maxStrDigits : Nat := 4300

def intUnsigned (s : PyStr) : Option Nat := do
  let ds ← intDigits s
  if ds.length ≤ maxStrDigits then some (ds.foldl (fun n d => 10 * n + d) 0) else none

/-- `int(s)`, `none` where it raises `ValueError`. The separators 0x1C to 0x1F are
space to `strip` but not to `int`. -/
def parseInt (s : PyStr) : Option Int :=
  let space c := isSpace c && !(0x1C ≤ c.toNat && c.toNat ≤ 0x1F)
  match (s.dropWhile space).rdropWhile space with
  | '-' :: digits => (intUnsigned digits).map fun n => -(n : Int)
  | '+' :: digits => (intUnsigned digits).map fun n => (n : Int)
  | digits => (intUnsigned digits).map fun n => (n : Int)

/-- `str(n)`. -/
def intText (n : Int) : PyStr :=
  if n < 0 then '-' :: Nat.toDigits 10 n.natAbs else Nat.toDigits 10 n.natAbs

/-- The digits a number is written with. -/
theorem exists_digits {b : Nat} (hb : 1 < b) (n : Nat) :
    ∃ ds : List Nat, Nat.toDigits b n = ds.map Nat.digitChar ∧ ds ≠ [] ∧ (∀ d ∈ ds, d < b) ∧
      ds.foldl (fun n d => b * n + d) 0 = n := by
  induction n using Nat.strongRecOn with
  | ind n ih =>
      rw [Nat.toDigits_eq_if hb]
      split
      · rename_i hlt
        exact ⟨[n], rfl, by simp, by simpa using hlt, by simp⟩
      · rename_i hge
        obtain ⟨ds, hds, -, hlt, hvalue⟩ := ih (n / b) (Nat.div_lt_self (by omega) hb)
        refine ⟨ds ++ [n % b], by simp [hds], by simp, ?_, ?_⟩
        · intro d hd
          rcases List.mem_append.mp hd with hd | hd
          · exact hlt d hd
          · rw [List.mem_singleton.mp hd]
            exact Nat.mod_lt n (by omega)
        · rw [List.foldl_append, hvalue]
          exact Nat.div_add_mod n b

theorem mem_toDigits {b n : Nat} (hb : 1 < b) {c : Char} (h : c ∈ Nat.toDigits b n) :
    ∃ d < b, c = Nat.digitChar d := by
  obtain ⟨ds, hds, -, hlt, -⟩ := exists_digits hb n
  rw [hds] at h
  obtain ⟨d, hd, rfl⟩ := List.mem_map.mp h
  exact ⟨d, hlt d hd, rfl⟩

theorem digitValue_digitChar : ∀ d < 10, digitValue (Nat.digitChar d) = some d := by decide

theorem isDecimal_of_mem_toDigits {n : Nat} {c : Char} (h : c ∈ Nat.toDigits 10 n) :
    isDecimal c = true := by
  obtain ⟨d, hd, rfl⟩ := mem_toDigits (by decide) h
  rw [isDecimal, digitValue_digitChar d hd]
  rfl

theorem notMem_toDigits {n : Nat} {c : Char} (h : isDecimal c = false) :
    c ∉ Nat.toDigits 10 n := by
  intro hc
  rw [isDecimal_of_mem_toDigits hc] at h
  cases h

/-- The sign and the digits. -/
theorem intText_eq (n : Int) :
    ∃ sign, (sign = [] ∨ sign = ['-']) ∧ intText n = sign ++ Nat.toDigits 10 n.natAbs := by
  unfold intText
  split
  · exact ⟨['-'], .inr rfl, rfl⟩
  · exact ⟨[], .inl rfl, rfl⟩

theorem digitChar_solid : ∀ d < 10, isSpace (Nat.digitChar d) = false ∧
    Nat.digitChar d ≠ '-' ∧ Nat.digitChar d ≠ '+' ∧ Nat.digitChar d ≠ '_' := by decide

theorem intDigits_map {ds : List Nat} (hne : ds ≠ []) (hlt : ∀ d ∈ ds, d < 10) :
    intDigits (ds.map Nat.digitChar) = some ds := by
  induction ds with
  | nil => exact absurd rfl hne
  | cons d ds ih =>
      have hd := digitValue_digitChar d (hlt d List.mem_cons_self)
      cases ds with
      | nil => simp [intDigits, hd]
      | cons d' ds =>
          have hrest := ih (by simp) (fun e he => hlt e (List.mem_cons_of_mem d he))
          have hd' := (digitChar_solid d' (hlt d' (by simp))).2.2.2
          rw [List.map_cons] at hrest
          rw [List.map_cons, List.map_cons, intDigits, hd, hrest]
          · rfl
          · intro h
            cases h
          · intro rest h
            exact hd' (List.cons.inj h).1

theorem trim_of_solid {p : Char → Bool} {s : PyStr} (h : ∀ c ∈ s, p c = false) :
    (s.dropWhile p).rdropWhile p = s := by
  have hdrop : s.dropWhile p = s := by
    rw [List.dropWhile_eq_self_iff]
    intro hpos
    rw [h _ (List.getElem_mem hpos)]
    exact Bool.false_ne_true
  rw [hdrop, List.rdropWhile_eq_self_iff]
  intro hne
  rw [h _ (List.getLast_mem hne)]
  exact Bool.false_ne_true

/-- `int(str(n))` is `n`. -/
theorem parseInt_intText {n : Int} (h : (Nat.toDigits 10 n.natAbs).length ≤ maxStrDigits) :
    parseInt (intText n) = some n := by
  obtain ⟨ds, hds, hne, hlt, hvalue⟩ := exists_digits (by decide : 1 < 10) n.natAbs
  have hsolid : ∀ c ∈ Nat.toDigits 10 n.natAbs, isSpace c = false ∧ c ≠ '-' ∧ c ≠ '+' := by
    intro c hc
    rw [hds] at hc
    obtain ⟨d, hd, rfl⟩ := List.mem_map.mp hc
    have hd := digitChar_solid d (hlt d hd)
    exact ⟨hd.1, hd.2.1, hd.2.2.1⟩
  have hunsigned : intUnsigned (Nat.toDigits 10 n.natAbs) = some n.natAbs := by
    rw [hds, List.length_map] at h
    simp only [hds, intUnsigned, intDigits_map hne hlt, Option.bind_eq_bind, Option.bind_some, h,
      if_true, hvalue]
  have htext : ∀ c ∈ intText n, isSpace c = false := by
    intro c hc
    unfold intText at hc
    split at hc
    · rcases List.mem_cons.mp hc with rfl | hc
      · decide
      · exact (hsolid c hc).1
    · exact (hsolid c hc).1
  unfold parseInt
  simp only
  rw [trim_of_solid fun c hc => by rw [htext c hc, Bool.false_and]]
  unfold intText
  by_cases hneg : n < 0
  · rw [if_pos hneg]
    simp only [hunsigned, Option.bind_eq_bind, Option.bind_some, Option.map_some, Option.pure_def]
    congr 1
    omega
  · rw [if_neg hneg]
    split
    · rename_i rest hrest
      exact absurd rfl (hsolid '-' (hrest ▸ List.mem_cons_self)).2.1
    · rename_i rest hrest
      exact absurd rfl (hsolid '+' (hrest ▸ List.mem_cons_self)).2.2
    · simp only [hunsigned, Option.bind_eq_bind, Option.bind_some, Option.map_some, Option.pure_def]
      congr 1
      omega

/-- A decimal digit is neither white space, nor a sign, nor an underscore. -/
theorem isDecimal_solid {c : Char} (h : isDecimal c = true) :
    isSpace c = false ∧ c ≠ '-' ∧ c ≠ '+' ∧ c ≠ '_' := by
  obtain ⟨d, hd⟩ := Option.isSome_iff_exists.mp h
  obtain ⟨first, hfirst, hrange⟩ := List.exists_of_findSome?_eq_some hd
  have hle : first ≤ c.toNat ∧ c.toNat < first + 10 := by
    split at hrange
    · assumption
    · cases hrange
  -- the blocks of digits lie between the ranges of white space
  have hblocks : decimalZeros.all fun z => z = 0x30 || (0x660 ≤ z && z + 9 < 0x1680) ||
      (0x1680 < z && z + 9 < 0x2000) || 0x3000 < z := by decide
  have hblock := List.all_eq_true.mp hblocks first hfirst
  simp only [Bool.or_eq_true, Bool.and_eq_true, decide_eq_true_eq] at hblock
  refine ⟨?_, ?_, ?_, ?_⟩
  · rw [← Bool.not_eq_true]
    intro hspace
    simp only [isSpace, Bool.or_eq_true, Bool.and_eq_true, decide_eq_true_eq] at hspace
    omega
  · rintro rfl
    have : ('-' : Char).toNat = 0x2D := rfl
    omega
  · rintro rfl
    have : ('+' : Char).toNat = 0x2B := rfl
    omega
  · rintro rfl
    have : ('_' : Char).toNat = 0x5F := rfl
    omega

theorem exists_intDigits {ds : PyStr} (hne : ds ≠ []) (h : ∀ c ∈ ds, isDecimal c = true) :
    ∃ values, intDigits ds = some values ∧ values.length = ds.length := by
  induction ds with
  | nil => exact absurd rfl hne
  | cons c ds ih =>
      obtain ⟨d, hd⟩ := Option.isSome_iff_exists.mp (h c List.mem_cons_self)
      cases ds with
      | nil => exact ⟨[d], by simp [intDigits, hd], rfl⟩
      | cons c' ds =>
          have hrest : ∀ x ∈ c' :: ds, isDecimal x = true :=
            fun x hx => h x (List.mem_cons_of_mem c hx)
          obtain ⟨values, hvalues, hlen⟩ := ih (List.cons_ne_nil c' ds) hrest
          refine ⟨d :: values, ?_, by rw [List.length_cons, hlen]; rfl⟩
          rw [intDigits, hd, hvalues]
          · rfl
          · intro hnil
            cases hnil
          · intro rest heq
            have hsolid := isDecimal_solid (hrest c' List.mem_cons_self)
            exact hsolid.2.2.2 (List.cons.inj heq).1

/-- `int` takes every text of digits short enough, with or without a sign. -/
theorem isSome_parseInt {sign ds : PyStr} (hsign : sign = [] ∨ sign = ['-']) (hne : ds ≠ [])
    (h : ∀ c ∈ ds, isDecimal c = true) (hlen : ds.length ≤ maxStrDigits) :
    (parseInt (sign ++ ds)).isSome = true := by
  obtain ⟨values, hvalues, hvlen⟩ := exists_intDigits hne h
  obtain ⟨n, hn⟩ : ∃ n, intUnsigned ds = some n := by
    simp only [intUnsigned, hvalues, Option.bind_eq_bind, Option.bind_some, hvlen, hlen, if_true]
    exact ⟨_, rfl⟩
  have hsolid : ∀ c ∈ sign ++ ds, isSpace c = false := by
    intro c hc
    rcases List.mem_append.mp hc with hc | hc
    · rcases hsign with rfl | rfl
      · cases hc
      · rw [List.mem_singleton.mp hc]
        decide
    · exact (isDecimal_solid (h c hc)).1
  unfold parseInt
  simp only
  rw [trim_of_solid fun c hc => by rw [hsolid c hc, Bool.false_and]]
  rcases hsign with rfl | rfl
  · rw [List.nil_append]
    split
    · exact absurd rfl (isDecimal_solid (h '-' List.mem_cons_self)).2.1
    · exact absurd rfl (isDecimal_solid (h '+' List.mem_cons_self)).2.2.1
    · rw [hn]
      rfl
  · rw [List.singleton_append]
    show (Option.map _ (intUnsigned ds >>= _)).isSome = true
    rw [hn]
    rfl

theorem length_toDigits_of_lt {n k : Nat} (h : n < 10 ^ k) (hk : 0 < k) :
    (Nat.toDigits 10 n).length ≤ k := (Nat.length_toDigits_le_iff (by decide) hk).mpr h

end SrxProbe.Lib
