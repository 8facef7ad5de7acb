import SrxProbe.Lib.Text

/-!
# Backtracking regular expressions

Patterns with captures, lookaround and greedy repetition, run by backtracking: a
pattern gives the list of the states it can end in, the preferred one first.
`Eats` and `Refuses` say what an engine makes of a text, with rules for each
construct, so that a match is derived from the pattern and the text ahead.
-/

namespace SrxProbe.Lib

/-- How far a match has got: the text before (last character first), the text
ahead, and what the groups captured, the latest first. -/
structure MatchState where
  before : List Char
  rest : List Char
  groups : List (Nat × PyStr)
  deriving DecidableEq, Repr

/-- Patterns. A lookaround reads the text on both sides and takes nothing. -/
inductive Regex
  | eps
  | cls (p : Char → Bool)
  | look (p : List Char → List Char → Bool)
  | seq (r q : Regex)
  | alt (r q : Regex)
  | star (r : Regex)
  | group (i : Nat) (r : Regex)

namespace Regex

/-- `step` repeated as often as it can be, the longest run first. A repetition
that takes nothing ends the run. -/
def iterate (step : MatchState → List MatchState) : Nat → MatchState → List MatchState
  | 0, s => [s]
  | n + 1, s =>
      ((step s).filter fun s' => s'.rest.length < s.rest.length).flatMap (iterate step n) ++ [s]

/-- The states in which `r` can end when started in a state, in order of preference. -/
def run : Regex → MatchState → List MatchState
  | eps, s => [s]
  | cls p, s =>
      match s.rest with
      | [] => []
      | c :: rest => if p c then [⟨c :: s.before, rest, s.groups⟩] else []
  | look p, s => if p s.before s.rest then [s] else []
  | seq r q, s => (r.run s).flatMap q.run
  | alt r q, s => r.run s ++ q.run s
  | star r, s => iterate r.run s.rest.length s
  | group i r, s =>
      (r.run s).map fun s' =>
        { s' with groups := (i, s.rest.take (s.rest.length - s'.rest.length)) :: s'.groups }

/-! ## Derived patterns -/

def chr (c : Char) : Regex := cls (· == c)

/-- Patterns one behind the other. -/
def cat (rs : List Regex) : Regex := rs.foldr seq eps

/-- A literal text. -/
def lit (text : PyStr) : Regex := cat (text.map chr)

def plus (r : Regex) : Regex := seq r (star r)

/-- At most `n` repetitions. -/
def upTo (r : Regex) : Nat → Regex
  | 0 => eps
  | n + 1 => alt (seq r (upTo r n)) eps

/-- From `lo` to `lo + more` repetitions. -/
def reps (r : Regex) (more : Nat) : Nat → Regex
  | 0 => upTo r more
  | lo + 1 => seq r (reps r more lo)

/-! ## Character classes -/

def digits : Regex := plus (cls isDecimal)

def spaces : Regex := plus (cls isSpace)

/-- `\S+`. -/
def nonspaces : Regex := plus (cls fun c => !isSpace c)

/-- `.` -/
def anyChar : Regex := cls (· ≠ '\n')

/-- `$`. -/
def lineEnd : Regex := look fun _ rest => rest = [] || rest = ['\n']

/-! ## What a pattern eats -/

variable {r q : Regex} {s s' s'' : MatchState}

/-- Before `w ++ rest`, `r` matches and prefers to take `w`. -/
def Eats (r : Regex) (w rest : List Char) (groups groups' : List (Nat × PyStr)) : Prop :=
  ∀ before, (r.run ⟨before, w ++ rest, groups⟩).head? = some ⟨w.reverse ++ before, rest, groups'⟩

/-- Before `rest`, `r` does not match. -/
def Refuses (r : Regex) (rest : List Char) (groups : List (Nat × PyStr)) : Prop :=
  ∀ before, r.run ⟨before, rest, groups⟩ = []

section rules

variable {p : Char → Bool} {c : Char} {w w' rest : List Char}
  {groups groups' groups'' : List (Nat × PyStr)}

theorem Eats.eps : Eats .eps [] rest groups groups := fun _ => rfl

theorem Eats.look {p : List Char → List Char → Bool} (h : ∀ before, p before rest = true) :
    Eats (.look p) [] rest groups groups := by
  intro before
  show (if p before rest then _ else _ : List MatchState).head? = _
  rw [if_pos (h before)]
  rfl

theorem Eats.cls (h : p c = true) : Eats (.cls p) [c] rest groups groups := by
  intro before
  show (if p c then _ else _ : List MatchState).head? = _
  rw [if_pos h]
  rfl

theorem Refuses.cls (h : ∀ c, rest.head? = some c → p c = false) :
    Refuses (.cls p) rest groups := by
  intro before
  cases rest with
  | nil => rfl
  | cons c rest =>
      show (if p c then _ else _ : List MatchState) = _
      rw [if_neg (by simp [h c rfl])]

theorem Eats.seq (hr : Eats r w (w' ++ rest) groups groups')
    (hq : Eats q w' rest groups' groups'') :
    Eats (.seq r q) (w ++ w') rest groups groups'' := by
  intro before
  rw [run, List.append_assoc]
  obtain ⟨l, hl⟩ := List.head?_eq_some_iff.mp (hr before)
  rw [hl, List.flatMap_cons, List.head?_append, hq, List.reverse_append, List.append_assoc]
  rfl

theorem Refuses.seq (h : ∀ before, ∀ s ∈ r.run ⟨before, rest, groups⟩, q.run s = []) :
    Refuses (.seq r q) rest groups := by
  intro before
  rw [run, List.flatMap_eq_nil_iff]
  exact h before

theorem Refuses.seqLeft (h : Refuses r rest groups) : Refuses (.seq r q) rest groups := by
  apply Refuses.seq
  intro before s hs
  rw [h before] at hs
  cases hs

theorem Eats.altLeft (hr : Eats r w rest groups groups') :
    Eats (.alt r q) w rest groups groups' := by
  intro before
  rw [run, List.head?_append, hr before]
  rfl

theorem Eats.altRight (hr : Refuses r (w ++ rest) groups) (hq : Eats q w rest groups groups') :
    Eats (.alt r q) w rest groups groups' := by
  intro before
  rw [run, hr before, List.nil_append, hq before]

theorem Refuses.alt (hr : Refuses r rest groups) (hq : Refuses q rest groups) :
    Refuses (.alt r q) rest groups := by
  intro before
  rw [run, hr before, hq before, List.nil_append]

/-- A group captures what its pattern takes. -/
theorem Eats.group {i : Nat} (h : Eats r w rest groups groups') :
    Eats (.group i r) w rest groups ((i, w) :: groups') := by
  intro before
  rw [run, List.head?_map, h before]
  simp

theorem Refuses.group {i : Nat} (h : Refuses r rest groups) : Refuses (.group i r) rest groups := by
  intro before
  rw [run, h before]
  rfl

theorem Eats.chr : Eats (.chr c) [c] rest groups groups := Eats.cls (beq_self_eq_true c)

theorem Refuses.chr (h : rest.head? ≠ some c) : Refuses (.chr c) rest groups := by
  apply Refuses.cls
  intro d hd
  rw [beq_eq_false_iff_ne]
  rintro rfl
  exact h hd

theorem Eats.cat_nil : Eats (cat []) [] rest groups groups := Eats.eps

theorem Eats.cat_cons {rs : List Regex} (hr : Eats r w (w' ++ rest) groups groups')
    (hrs : Eats (cat rs) w' rest groups' groups'') :
    Eats (cat (r :: rs)) (w ++ w') rest groups groups'' := Eats.seq hr hrs

theorem Eats.cat_cls {rs : List Regex} (hc : p c = true)
    (hrs : Eats (cat rs) w rest groups groups') :
    Eats (cat (.cls p :: rs)) (c :: w) rest groups groups' := Eats.seq (Eats.cls hc) hrs

theorem Eats.cat_chr {rs : List Regex} (hrs : Eats (cat rs) w rest groups groups') :
    Eats (cat (.chr c :: rs)) (c :: w) rest groups groups' := Eats.seq Eats.chr hrs

theorem Eats.cat_last (hr : Eats r w rest groups groups') :
    Eats (cat [r]) w rest groups groups' := by
  have h : Eats (cat [r]) (w ++ []) rest groups groups' := Eats.seq hr Eats.cat_nil
  rwa [List.append_nil] at h

theorem Eats.lit {text : PyStr} : Eats (lit text) text rest groups groups := by
  induction text with
  | nil => exact Eats.cat_nil
  | cons c text ih => exact Eats.cat_chr ih

theorem Refuses.cat_cons {rs : List Regex} (h : Refuses r rest groups) :
    Refuses (cat (r :: rs)) rest groups := Refuses.seqLeft h

/-- Behind a character a pattern refuses what follows, or the character is not there. -/
theorem Refuses.cat_chr {rs : List Regex}
    (h : ∀ behind, rest = c :: behind → Refuses (cat rs) behind groups) :
    Refuses (cat (.chr c :: rs)) rest groups := by
  by_cases hhead : rest.head? = some c
  · obtain ⟨behind, rfl⟩ := List.head?_eq_some_iff.mp hhead
    apply Refuses.seq
    intro before s hs
    have hstate : s = ⟨c :: before, behind, groups⟩ := by
      have hrun : (Regex.chr c).run ⟨before, c :: behind, groups⟩ =
          [⟨c :: before, behind, groups⟩] := if_pos (beq_self_eq_true c)
      rw [hrun] at hs
      exact List.mem_singleton.mp hs
    rw [hstate]
    exact h behind rfl _
  · exact Refuses.cat_cons (Refuses.chr hhead)

theorem Refuses.lit {text : PyStr} (h : rest.head? ≠ some c) :
    Refuses (lit (c :: text)) rest groups := Refuses.cat_cons (Refuses.chr h)

end rules

/-! ## Repetition -/

/-- Fuel beyond the length of the text ahead changes nothing. -/
theorem iterate_fuel (step : MatchState → List MatchState) {n : Nat}
    (h : s.rest.length ≤ n) : iterate step n s = iterate step s.rest.length s := by
  induction n using Nat.strongRecOn generalizing s with
  | ind n ih =>
      cases n with
      | zero => rw [Nat.le_zero.mp h]
      | succ n =>
          cases hlen : s.rest.length with
          | zero => simp [iterate, hlen]
          | succ m =>
              rw [iterate, iterate]
              congr 1
              apply List.flatMap_congr
              intro s' hs'
              have hlt : s'.rest.length < s.rest.length := by
                simpa using (List.mem_filter.mp hs').2
              rw [ih n (by omega) (by omega), ih m (by omega) (by omega)]

/-- A repetition goes around once more if it can, or ends. -/
theorem run_star (r : Regex) (s : MatchState) :
    (star r).run s =
      ((r.run s).filter fun s' => s'.rest.length < s.rest.length).flatMap (star r).run ++ [s] := by
  rw [run]
  cases hlen : s.rest.length with
  | zero => simp [iterate]
  | succ n =>
      rw [iterate, hlen]
      congr 1
      apply List.flatMap_congr
      intro s' hs'
      have hlt : s'.rest.length < n + 1 := by
        simpa using (List.mem_filter.mp hs').2
      rw [run, iterate_fuel r.run (by omega)]

section rules

variable {p : Char → Bool} {c : Char} {w w' rest : List Char}
  {groups groups' groups'' : List (Nat × PyStr)}

theorem Eats.starDone (h : Refuses r rest groups) : Eats (.star r) [] rest groups groups := by
  intro before
  rw [run_star, List.nil_append, h before]
  rfl

theorem Eats.starStep (hr : Eats r w (w' ++ rest) groups groups') (hne : w ≠ [])
    (hrest : Eats (.star r) w' rest groups' groups'') :
    Eats (.star r) (w ++ w') rest groups groups'' := by
  intro before
  obtain ⟨l, hl⟩ := List.head?_eq_some_iff.mp (hr before)
  have hpos : 0 < w.length := List.length_pos_iff.mpr hne
  have hlen : (w ++ (w' ++ rest)).length = w.length + (w' ++ rest).length := List.length_append
  have hlt : (w' ++ rest).length < (w ++ (w' ++ rest)).length := by omega
  rw [run_star, List.append_assoc, hl, List.filter_cons_of_pos (by simpa using hlt),
    List.flatMap_cons, List.append_assoc, List.head?_append, hrest, List.reverse_append,
    List.append_assoc]
  rfl

/-- A repeated class takes all it can. -/
theorem Eats.starCls (hw : ∀ c ∈ w, p c = true) (hrest : ∀ c, rest.head? = some c → p c = false) :
    Eats (.star (.cls p)) w rest groups groups := by
  induction w with
  | nil => exact Eats.starDone (Refuses.cls hrest)
  | cons c w ih =>
      have hstep := ih fun d hd => hw d (List.mem_cons_of_mem c hd)
      exact Eats.starStep (Eats.cls (hw c List.mem_cons_self)) (List.cons_ne_nil c []) hstep

theorem Eats.plusCls (hw : ∀ c ∈ w, p c = true) (hne : w ≠ [])
    (hrest : ∀ c, rest.head? = some c → p c = false) :
    Eats (.plus (.cls p)) w rest groups groups := by
  cases w with
  | nil => exact absurd rfl hne
  | cons c w =>
      refine Eats.seq (Eats.cls (hw c List.mem_cons_self)) ?_
      exact Eats.starCls (fun d hd => hw d (List.mem_cons_of_mem c hd)) hrest

theorem Refuses.plus (h : Refuses r rest groups) : Refuses (.plus r) rest groups :=
  Refuses.seqLeft h

theorem Eats.upToCls {n : Nat} (hw : ∀ c ∈ w, p c = true) (hn : w.length ≤ n)
    (hrest : ∀ c, rest.head? = some c → p c = false) :
    Eats (upTo (.cls p) n) w rest groups groups := by
  induction n generalizing w with
  | zero =>
      rw [List.length_eq_zero_iff.mp (Nat.le_zero.mp hn)]
      exact Eats.eps
  | succ n ih =>
      cases w with
      | nil => exact Eats.altRight (Refuses.seqLeft (Refuses.cls hrest)) Eats.eps
      | cons c w =>
          have hw' : ∀ d ∈ w, p d = true := fun d hd => hw d (List.mem_cons_of_mem c hd)
          have hrec := ih hw' (Nat.le_of_succ_le_succ hn)
          exact Eats.altLeft (Eats.seq (Eats.cls (hw c List.mem_cons_self)) hrec)

theorem Eats.repsCls {lo more : Nat} (hw : ∀ c ∈ w, p c = true) (hlo : lo ≤ w.length)
    (hhi : w.length ≤ lo + more) (hrest : ∀ c, rest.head? = some c → p c = false) :
    Eats (reps (.cls p) more lo) w rest groups groups := by
  induction lo generalizing w with
  | zero => exact Eats.upToCls hw (by omega) hrest
  | succ lo ih =>
      cases w with
      | nil => exact absurd hlo (Nat.not_succ_le_zero lo)
      | cons c w =>
          have hw' : ∀ d ∈ w, p d = true := fun d hd => hw d (List.mem_cons_of_mem c hd)
          rw [List.length_cons] at hlo hhi
          exact Eats.seq (Eats.cls (hw c List.mem_cons_self)) (ih hw' (by omega) (by omega))

end rules

/-! ## The characters a match takes -/

/-- Every character that `r` takes satisfies `q`. -/
def Over (q : Char → Prop) : Regex → Prop
  | eps => True
  | cls p => ∀ c, p c = true → q c
  | look _ => True
  | seq r r' => Over q r ∧ Over q r'
  | alt r r' => Over q r ∧ Over q r'
  | star r => Over q r
  | group _ r => Over q r

/-- `s'` is reached from `s` by taking characters that satisfy `q`. -/
def Takes (q : Char → Prop) (s s' : MatchState) : Prop :=
  ∃ w, s.rest = w ++ s'.rest ∧ s'.before = w.reverse ++ s.before ∧ ∀ c ∈ w, q c

theorem Takes.refl {q : Char → Prop} : Takes q s s := ⟨[], rfl, rfl, nofun⟩

theorem Takes.trans {q : Char → Prop} (h : Takes q s s') (h' : Takes q s' s'') :
    Takes q s s'' := by
  obtain ⟨w, hrest, hbefore, hw⟩ := h
  obtain ⟨w', hrest', hbefore', hw'⟩ := h'
  refine ⟨w ++ w', ?_, ?_, ?_⟩
  · rw [hrest, hrest', List.append_assoc]
  · rw [hbefore', hbefore, List.reverse_append, List.append_assoc]
  · intro c hc
    rcases List.mem_append.mp hc with hc | hc
    · exact hw c hc
    · exact hw' c hc

theorem takes_of_iterate {q : Char → Prop} {step : MatchState → List MatchState}
    (hstep : ∀ s, ∀ s' ∈ step s, Takes q s s') (n : Nat) :
    ∀ s' ∈ iterate step n s, Takes q s s' := by
  induction n generalizing s with
  | zero =>
      intro s' hs'
      rw [List.mem_singleton.mp hs']
      exact Takes.refl
  | succ n ih =>
      intro s' hs'
      rcases List.mem_append.mp hs' with hs' | hs'
      · obtain ⟨t, ht, hs'⟩ := List.mem_flatMap.mp hs'
        exact (hstep s t (List.mem_filter.mp ht).1).trans (ih s' hs')
      · rw [List.mem_singleton.mp hs']
        exact Takes.refl

theorem Over.takes {q : Char → Prop} {r : Regex} (h : r.Over q) {s : MatchState} :
    ∀ s' ∈ r.run s, Takes q s s' := by
  induction r generalizing s with
  | eps =>
      intro s' hs'
      rw [List.mem_singleton.mp hs']
      exact Takes.refl
  | cls p =>
      intro s' hs'
      rw [run] at hs'
      split at hs'
      · cases hs'
      · rename_i c rest hrest
        split at hs'
        · rename_i hp
          rw [List.mem_singleton.mp hs']
          refine ⟨[c], hrest, rfl, ?_⟩
          intro d hd
          rw [List.mem_singleton.mp hd]
          exact h c hp
        · cases hs'
  | look p =>
      intro s' hs'
      rw [run] at hs'
      split at hs'
      · rw [List.mem_singleton.mp hs']
        exact Takes.refl
      · cases hs'
  | seq r r' ih ih' =>
      intro s' hs'
      obtain ⟨t, ht, hs'⟩ := List.mem_flatMap.mp hs'
      exact (ih h.1 t ht).trans (ih' h.2 s' hs')
  | alt r r' ih ih' =>
      intro s' hs'
      rcases List.mem_append.mp hs' with hs' | hs'
      · exact ih h.1 s' hs'
      · exact ih' h.2 s' hs'
  | star r ih => exact takes_of_iterate (fun s s' hs' => ih h s' hs') _
  | group i r ih =>
      intro s' hs'
      obtain ⟨t, ht, rfl⟩ := List.mem_map.mp hs'
      exact ih h t ht

theorem over_lit {q : Char → Prop} {text : PyStr} (h : ∀ c ∈ text, q c) : (lit text).Over q := by
  induction text with
  | nil => trivial
  | cons c text ih =>
      refine ⟨?_, ih fun d hd => h d (List.mem_cons_of_mem c hd)⟩
      intro d hd
      rw [beq_iff_eq.mp hd]
      exact h c List.mem_cons_self

/-! ## Matching a text -/

/-- A match: what it took, what lies before and behind it, and its groups. -/
structure Match where
  before : List Char
  text : PyStr
  rest : List Char
  groups : List (Nat × PyStr)
  deriving DecidableEq, Repr

/-- `m.group(i)`. -/
def Match.group (m : Match) (i : Nat) : Option PyStr := m.groups.lookup i

/-- `m.end()`. -/
def Match.stop (m : Match) : Nat := m.before.length + m.text.length

/-- The match that started with `before` and `rest` and ended in `s`. -/
def toMatch (before rest : List Char) (s : MatchState) : Match :=
  ⟨before, rest.take (rest.length - s.rest.length), s.rest, s.groups⟩

/-- `r.match(text, pos)`, with the text before `pos` (last character first) apart. -/
def matchAt (r : Regex) (before rest : List Char) : Option Match :=
  (r.run ⟨before, rest, []⟩).head?.map (toMatch before rest)

/-- `r.fullmatch(text)`. -/
def fullmatch (r : Regex) (text : PyStr) : Option Match :=
  ((r.run ⟨[], text, []⟩).find? fun s => s.rest.isEmpty).map (toMatch [] text)

/-- `r.search` from a position on. -/
def searchFrom (r : Regex) (before : List Char) : List Char → Option Match
  | [] => r.matchAt before []
  | c :: rest =>
      match r.matchAt before (c :: rest) with
      | some m => some m
      | none => searchFrom r (c :: before) rest

def search (r : Regex) (text : PyStr) : Option Match := r.searchFrom [] text

/-- What a scan over a text finds: a character no match begins at, or a match. -/
inductive Piece
  | skip (c : Char)
  | found (m : Match)
  deriving DecidableEq, Repr

/-- The scan shared by `finditer` and `sub`, for a pattern that takes something
whenever it matches. -/
def scan (r : Regex) : Nat → List Char → List Char → List Piece
  | 0, _, _ => []
  | _ + 1, _, [] => []
  | n + 1, before, c :: rest =>
      match (r.run ⟨before, c :: rest, []⟩).find? fun s => s.rest.length ≤ rest.length with
      | none => .skip c :: scan r n (c :: before) rest
      | some s => .found (toMatch before (c :: rest) s) :: scan r n s.before s.rest

def pieces (r : Regex) (before rest : List Char) : List Piece := scan r rest.length before rest

/-- The matches found from a position on. -/
def matchesFrom (r : Regex) (before rest : List Char) : List Match :=
  (r.pieces before rest).filterMap fun
    | .skip _ => none
    | .found m => some m

/-- `r.finditer(text)`. -/
def finditer (r : Regex) (text : PyStr) : List Match := r.matchesFrom [] text

/-- The text from a position on with each match replaced. -/
def subFrom (r : Regex) (f : Match → PyStr) (before rest : List Char) : PyStr :=
  (r.pieces before rest).flatMap fun
    | .skip c => [c]
    | .found m => f m

/-- `r.sub(f, text)`. -/
def sub (r : Regex) (f : Match → PyStr) (text : PyStr) : PyStr := r.subFrom f [] text

section pieces

variable {before rest w : List Char} {groups : List (Nat × PyStr)}

theorem matchAt_of_eats (before : List Char) (h : Eats r w rest [] groups) :
    r.matchAt before (w ++ rest) = some ⟨before, w, rest, groups⟩ := by
  rw [matchAt, h before, Option.map_some, toMatch]
  simp

/-- A search finds a match at some place in the text, and there is none before it. -/
theorem matchAt_of_searchFrom {m : Match} (h : r.searchFrom before rest = some m) :
    ∃ skipped ahead, rest = skipped ++ ahead ∧
      r.matchAt (skipped.reverse ++ before) ahead = some m ∧
      ∀ u v, rest = u ++ v → u.length < skipped.length →
        r.matchAt (u.reverse ++ before) v = none := by
  induction rest generalizing before with
  | nil => exact ⟨[], [], rfl, h, fun _ _ _ hlt => absurd hlt (Nat.not_lt_zero _)⟩
  | cons c rest ih =>
      rw [searchFrom] at h
      split at h
      next hmatch =>
        cases h
        exact ⟨[], c :: rest, rfl, hmatch, fun _ _ _ hlt => absurd hlt (Nat.not_lt_zero _)⟩
      next hnone =>
        obtain ⟨skipped, ahead, rfl, hmatch, hfirst⟩ := ih h
        refine ⟨c :: skipped, ahead, rfl, ?_, ?_⟩
        · rwa [List.reverse_cons, List.append_assoc]
        · intro u v hsplit hlt
          cases u with
          | nil =>
              rw [List.nil_append] at hsplit
              rw [← hsplit]
              exact hnone
          | cons d u =>
              obtain ⟨rfl, htail⟩ := List.cons.inj hsplit
              rw [List.reverse_cons, List.append_assoc]
              exact hfirst u v htail (Nat.lt_of_succ_lt_succ hlt)

theorem scan_fuel {n : Nat} (h : rest.length ≤ n) :
    r.scan n before rest = r.pieces before rest := by
  induction n using Nat.strongRecOn generalizing before rest with
  | ind n ih =>
      cases rest with
      | nil =>
          cases n with
          | zero => rfl
          | succ n => rfl
      | cons c rest =>
          cases n with
          | zero => cases h
          | succ n =>
              rw [pieces, List.length_cons, scan, scan]
              rw [List.length_cons] at h
              cases hfind : (r.run ⟨before, c :: rest, []⟩).find?
                  fun s => s.rest.length ≤ rest.length with
              | none =>
                  show _ :: _ = _ :: _
                  rw [ih n (by omega) (by omega)]
                  rfl
              | some s =>
                  have hle : s.rest.length ≤ rest.length := by
                    simpa using List.find?_some hfind
                  show _ :: _ = _ :: _
                  rw [ih n (by omega) (by omega), ih rest.length (by omega) hle]

/-- Where the pattern fails, the scan goes on behind one character. -/
theorem pieces_skip {c : Char} (h : Refuses r (c :: rest) []) :
    r.pieces before (c :: rest) = .skip c :: r.pieces (c :: before) rest := by
  rw [pieces, List.length_cons, scan, h before]
  rfl

/-- Where it matches, the scan goes on behind the match. -/
theorem pieces_found (h : Eats r w rest [] groups) (hne : w ≠ []) :
    r.pieces before (w ++ rest) =
      .found ⟨before, w, rest, groups⟩ :: r.pieces (w.reverse ++ before) rest := by
  cases w with
  | nil => exact absurd rfl hne
  | cons c w =>
      obtain ⟨l, hrun⟩ := List.head?_eq_some_iff.mp (h before)
      have hle : rest.length ≤ (w ++ rest).length := by simp
      have htext : (c :: w ++ rest).take ((c :: w ++ rest).length - rest.length) = c :: w := by
        rw [List.length_append, Nat.add_sub_cancel, List.take_left]
      rw [pieces, List.cons_append, List.length_cons, scan, ← List.cons_append, hrun,
        List.find?_cons_of_pos (by simp)]
      show Piece.found (toMatch before (c :: w ++ rest) _) :: _ = _
      rw [scan_fuel hle, toMatch, htext]

theorem matchesFrom_skip {c : Char} (h : Refuses r (c :: rest) []) :
    r.matchesFrom before (c :: rest) = r.matchesFrom (c :: before) rest := by
  rw [matchesFrom, pieces_skip h]
  rfl

theorem matchesFrom_found (h : Eats r w rest [] groups) (hne : w ≠ []) :
    r.matchesFrom before (w ++ rest) =
      ⟨before, w, rest, groups⟩ :: r.matchesFrom (w.reverse ++ before) rest := by
  rw [matchesFrom, pieces_found h hne]
  rfl

theorem subFrom_skip {f : Match → PyStr} {c : Char} (h : Refuses r (c :: rest) []) :
    r.subFrom f before (c :: rest) = c :: r.subFrom f (c :: before) rest := by
  rw [subFrom, pieces_skip h]
  rfl

theorem subFrom_found {f : Match → PyStr} (h : Eats r w rest [] groups) (hne : w ≠ []) :
    r.subFrom f before (w ++ rest) =
      f ⟨before, w, rest, groups⟩ ++ r.subFrom f (w.reverse ++ before) rest := by
  rw [subFrom, pieces_found h hne]
  rfl

end pieces

end Regex

end SrxProbe.Lib
