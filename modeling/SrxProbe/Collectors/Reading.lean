import SrxProbe.Collectors.Written

/-!
# Fields outside quoted values

A text of fields, read from the left: a quote directly behind `key=` opens a value that
runs to its closing quote, or to the end of the text; any other value runs as far as its
characters do. The scan of the parser finds the fields of that reading, and goes on inside
a value that is not closed.
-/

namespace SrxProbe.Collectors

open SrxProbe.Lib SrxProbe.Lib.Regex SrxProbe.Validation

/-! ## The fields outside quoted values -/

/-- `[^\s\]"]`. -/
def isValueChar (c : Char) : Bool := !isSpace c && c ≠ ']' && c ≠ '"'

/-- What a quoted value has up to its unescaped closing quote, and what follows that. -/
def closeQuote : PyStr → Option (PyStr × PyStr)
  | [] => none
  | '"' :: rest => some ([], rest)
  | '\\' :: c :: rest =>
      (closeQuote rest).map fun (content, behind) => ('\\' :: c :: content, behind)
  | c :: rest => (closeQuote rest).map fun (content, behind) => (c :: content, behind)

theorem closeQuote_eq {s content behind : PyStr} (h : closeQuote s = some (content, behind)) :
    s = content ++ '"' :: behind := by
  fun_induction closeQuote s generalizing content behind with
  | case1 => cases h
  | case2 rest =>
      cases h
      rfl
  | case3 c rest ih =>
      obtain ⟨⟨content', behind'⟩, hrec, hpair⟩ := Option.map_eq_some_iff.mp h
      cases hpair
      rw [ih hrec]
      rfl
  | case4 c rest _ _ ih =>
      obtain ⟨⟨content', behind'⟩, hrec, hpair⟩ := Option.map_eq_some_iff.mp h
      cases hpair
      rw [ih hrec]
      rfl

theorem closeQuote_length {s content behind : PyStr}
    (h : closeQuote s = some (content, behind)) : behind.length < s.length := by
  rw [closeQuote_eq h, List.length_append, List.length_cons]
  omega

section run

variable {p : Char → Bool} {s rest : PyStr}

theorem length_takeWhile_add (p : Char → Bool) (s : PyStr) :
    (s.takeWhile p).length + (s.dropWhile p).length = s.length := by
  rw [← List.length_append, List.takeWhile_append_dropWhile]

theorem takeWhile_append_of_dropWhile (h : s.dropWhile p = rest) : s.takeWhile p ++ rest = s := by
  rw [← h, List.takeWhile_append_dropWhile]

theorem head_dropWhile {c : Char} (h : (s.dropWhile p).head? = some c) : p c = false := by
  have hhead := List.head?_dropWhile_not p s
  rw [h] at hhead
  exact hhead

end run

/-- The fields that begin outside the quoted values of a text, and what stands in a quoted
value that is not closed. -/
structure Reading where
  fields : List (PyStr × PyStr)
  cut : Option PyStr
  deriving DecidableEq, Repr

def Reading.withField (r : Reading) (name value : PyStr) : Reading :=
  { r with fields := (name, value) :: r.fields }

/-- A text read from the left. -/
def reading (s : PyStr) : Reading :=
  let name := s.takeWhile isKeyChar
  match _hrest : s.dropWhile isKeyChar with
  | [] => ⟨[], none⟩
  | '=' :: '"' :: behind =>
      if name.isEmpty then reading behind
      else
        match _hclose : closeQuote behind with
        | none => ⟨[], some behind⟩
        | some (content, behind') => (reading behind').withField name (unescape content)
  | '=' :: behind =>
      let value := behind.takeWhile isValueChar
      if name.isEmpty || value.isEmpty then reading behind
      else (reading (behind.dropWhile isValueChar)).withField name value
  | _ :: behind => reading behind
termination_by s.length
decreasing_by
  all_goals
    have hlen := length_takeWhile_add isKeyChar s
    rw [_hrest] at hlen
    simp only [List.length_cons] at hlen
  · omega
  · have hlt := closeQuote_length _hclose
    omega
  · omega
  · have hvalue := length_takeWhile_add isValueChar behind
    omega
  · omega

/-! ## Quoted values -/

/-- What is closed is what the pattern of a quoted value takes. -/
theorem quotable_of_closeQuote {s content behind : PyStr} (hlf : '\n' ∉ s)
    (h : closeQuote s = some (content, behind)) : isQuotable isPlain content = true := by
  fun_induction closeQuote s generalizing content behind with
  | case1 => cases h
  | case2 rest =>
      cases h
      rfl
  | case3 c rest ih =>
      obtain ⟨⟨content', behind'⟩, hrec, hpair⟩ := Option.map_eq_some_iff.mp h
      cases hpair
      have hc : c ≠ '\n' := fun h => hlf (by simp [h])
      rw [isQuotable, ih (fun h => hlf (by simp [h])) hrec, Bool.and_true]
      exact decide_eq_true hc
  | case4 c rest hquote hback ih =>
      obtain ⟨⟨content', behind'⟩, hrec, hpair⟩ := Option.map_eq_some_iff.mp h
      cases hpair
      -- a backslash in front of something would have been the case of an escape
      have hne : c ≠ '\\' := by
        rintro rfl
        rw [closeQuote_eq hrec] at hback
        cases content' with
        | nil => exact hback '"' behind rfl rfl
        | cons d content' => exact hback d (content' ++ '"' :: behind) rfl rfl
      have hplain : isPlain c = true := by
        simp [isPlain, hne, show c ≠ '"' from hquote]
      rw [isQuotable.eq_3 _ _ _ (fun _ _ h => absurd h hne), hplain,
        ih (fun h => hlf (List.mem_cons_of_mem c h)) hrec]
      rfl

theorem closeQuote_append {content : PyStr} (h : isQuotable isPlain content = true)
    (behind : PyStr) : closeQuote (content ++ '"' :: behind) = some (content, behind) := by
  fun_induction isQuotable isPlain content with
  | case1 => rfl
  | case2 c content ih =>
      rw [Bool.and_eq_true] at h
      show (closeQuote (content ++ '"' :: behind)).map _ = _
      rw [ih h.2]
      rfl
  | case3 c content hback ih =>
      rw [Bool.and_eq_true] at h
      obtain ⟨hquote, hne⟩ : c ≠ '"' ∧ c ≠ '\\' := by simpa [isPlain] using h.1
      rw [List.cons_append, closeQuote.eq_4 _ _ hquote fun _ _ h => absurd h hne, ih h.2]
      rfl

/-- A value that is not closed is not taken for a quoted one. -/
theorem quoted_refuses {behind : PyStr} (h : closeQuote behind = none)
    (groups : List (Nat × PyStr)) : Refuses quoted ('"' :: behind) groups := by
  intro before
  by_contra hrun
  obtain ⟨s', hs'⟩ := List.exists_mem_of_ne_nil _ hrun
  obtain ⟨w, hw, hrest⟩ := (took_of_run s' hs').word
  obtain ⟨quote, hquote, w₁, h₁, rfl⟩ := mem_lang_cat_cons.mp hw
  obtain ⟨content, hcontent, w₂, h₂, rfl⟩ := mem_lang_cat_cons.mp h₁
  rw [mem_lang_chr.mp hquote, mem_lang_chr.mp (mem_lang_cat_last.mp h₂)] at hrest
  have hbehind : behind = content ++ '"' :: s'.rest := by
    simpa using hrest
  have hclose := closeQuote_append
    (isQuotable_of_mem_lang (p := isPlain) ⟨by decide, by decide⟩ hcontent) s'.rest
  rw [← hbehind, h] at hclose
  cases hclose

/-! ## What the scan finds -/

theorem isKeyChar_equals : isKeyChar '=' = false := by decide

theorem equals_not_mem_key {name : PyStr} (h : ∀ c ∈ name, isKeyChar c = true) : '=' ∉ name := by
  intro hmem
  have hkey := h '=' hmem
  rw [isKeyChar_equals] at hkey
  cases hkey

/-- A text is cut in one way at its first `=`. -/
theorem equals_unique {u u' v v' : PyStr} (hu : '=' ∉ u) (hu' : '=' ∉ u')
    (h : u ++ '=' :: v = u' ++ '=' :: v') : u = u' ∧ v = v' := by
  obtain ⟨hfirst, hrest⟩ := cut_unique hu hu' rfl rfl h
  exact ⟨hfirst, (List.cons.inj hrest).2⟩

/-- A key whose value is not taken is refused. -/
theorem key_refuses {name behind : PyStr} (hname : ∀ c ∈ name, isKeyChar c = true)
    (h : name ≠ [] → ∀ groups, Refuses quoted behind groups ∧
      Refuses (plus (cls fun c => !isSpace c && c ≠ ']' && c ≠ '"')) behind groups) :
    Refuses kvRe (name ++ '=' :: behind) [] := by
  apply kvRe_refuses_of
  intro key behind' hsplit hne hchars groups
  obtain ⟨rfl, rfl⟩ := equals_unique (equals_not_mem_key hname) (equals_not_mem_key hchars) hsplit
  exact h hne groups

/-- It assigns nothing, and neither does its `=`. -/
theorem assignments_key {name behind : PyStr} (hname : ∀ c ∈ name, isKeyChar c = true)
    (h : name ≠ [] → ∀ groups, Refuses quoted behind groups ∧
      Refuses (plus (cls fun c => !isSpace c && c ≠ ']' && c ≠ '"')) behind groups)
    (before : List Char) :
    assignments before (name ++ '=' :: behind) =
      assignments ('=' :: (name.reverse ++ before)) behind := by
  induction name generalizing before with
  | nil =>
      rw [List.nil_append, assignments, matchesFrom_skip (key_refuses hname h)]
      rfl
  | cons c name ih =>
      have hrec := ih (fun d hd => hname d (List.mem_cons_of_mem c hd))
        (fun _ => h (List.cons_ne_nil c name)) (c :: before)
      have hrefuses : Refuses kvRe (c :: (name ++ '=' :: behind)) [] := key_refuses hname h
      rw [List.cons_append, assignments, matchesFrom_skip hrefuses, List.reverse_cons,
        List.append_assoc]
      exact hrec

/-- A field with a plain value is taken. -/
theorem assignments_value {name value behind : PyStr} (hne : name ≠ [])
    (hname : ∀ c ∈ name, isKeyChar c = true) (hvalue : value ≠ [])
    (hchars : ∀ c ∈ value, isValueChar c = true)
    (hend : ∀ c, behind.head? = some c → isValueChar c = false) (before : List Char) :
    ∃ before', assignments before (name ++ '=' :: (value ++ behind)) =
      (name, value) :: assignments before' behind := by
  have htext : name ++ '=' :: (value ++ behind) = (name ++ '=' :: value) ++ behind := by simp
  have hquote : (value ++ behind).head? ≠ some '"' := by
    cases value with
    | nil => exact absurd rfl hvalue
    | cons c value =>
        intro hhead
        have hc := hchars c List.mem_cons_self
        rw [show c = '"' from Option.some.inj hhead] at hc
        revert hc
        decide
  -- the pattern of a quoted value comes first, and fails where no quote follows `=`
  have hfirst : Refuses (cat [group 1 key, chr '=', group 2 quoted])
      ((name ++ '=' :: value) ++ behind) [] := by
    apply field_refuses
    intro key behind' hsplit _ hkey groups
    rw [← htext] at hsplit
    obtain ⟨-, rfl⟩ := equals_unique (equals_not_mem_key hname) (equals_not_mem_key hkey) hsplit
    exact Refuses.group (Refuses.cat_cons (Refuses.chr hquote))
  have heats : Eats kvRe (name ++ '=' :: value) behind [] [(4, value), (3, name)] := by
    refine Eats.altRight hfirst (Eats.cat_cons (Eats.group (eats_key hne hname _ [])) ?_)
    exact Eats.cat_chr (Eats.cat_last (Eats.group (Eats.plusCls hchars hvalue hend)))
  refine ⟨(name ++ '=' :: value).reverse ++ before, ?_⟩
  rw [htext, assignments, matchesFrom_found heats (by simp), List.map_cons]
  rfl

/-- Neither pattern of a value takes a text that begins with no quote and no character
of a value. -/
theorem values_refuse {behind : PyStr} (hquote : behind.head? ≠ some '"')
    (hvalue : behind.takeWhile isValueChar = []) (groups : List (Nat × PyStr)) :
    Refuses quoted behind groups ∧
      Refuses (plus (cls fun c => !isSpace c && c ≠ ']' && c ≠ '"')) behind groups := by
  refine ⟨Refuses.cat_cons (Refuses.chr hquote), Refuses.plus (Refuses.cls ?_)⟩
  intro c hc
  obtain ⟨rest, rfl⟩ := List.head?_eq_some_iff.mp hc
  by_contra hchar
  rw [List.takeWhile_cons_of_pos (Bool.not_eq_false _ ▸ hchar)] at hvalue
  cases hvalue

theorem assignments_quote (before behind : List Char) :
    assignments before ('"' :: behind) = assignments ('"' :: before) behind :=
  assigns_char (d := '"') (by decide) (by decide) before behind

/-- The scan finds the fields outside quoted values, and goes on in a value that is not
closed. -/
theorem assignments_reading (s : PyStr) (hlf : '\n' ∉ s) (before : List Char) :
    ∃ before', assignments before s =
      (reading s).fields ++ (reading s).cut.elim [] (assignments before') := by
  have hkey : ∀ s : PyStr, ∀ c ∈ s.takeWhile isKeyChar, isKeyChar c = true :=
    fun s c hc => List.mem_takeWhile_imp hc
  have htail : ∀ {u v : PyStr}, '\n' ∉ u ++ v → '\n' ∉ v :=
    fun h hmem => h (List.mem_append_right _ hmem)
  -- the cases of `reading`: the scan passes what is no field, and takes what is one
  fun_induction reading s generalizing before with
  | case1 s hrest =>
      refine ⟨before, ?_⟩
      have hskip : assignments before (s.takeWhile isKeyChar ++ []) = [] :=
        assignments_behind (equals_not_mem_key (hkey s)) (fun _ h => by cases h) before
      rw [takeWhile_append_of_dropWhile hrest] at hskip
      rw [hskip]
      rfl
  | case2 s name behind hrest hempty ih =>
      have hs := takeWhile_append_of_dropWhile hrest
      rw [show s.takeWhile isKeyChar = [] from List.isEmpty_iff.mp hempty] at hs
      subst hs
      -- `=` without a key: the quote behind it opens nothing
      obtain ⟨before', hrec⟩ := ih (htail (u := ['=', '"']) hlf) ('"' :: '=' :: before)
      refine ⟨before', ?_⟩
      have hskip : assignments before ([] ++ '=' :: '"' :: behind) =
          assignments ('=' :: before) ('"' :: behind) :=
        assignments_key (fun _ h => by cases h) (absurd rfl) before
      rw [hskip, assignments_quote]
      exact hrec
  | case3 s name behind hrest hempty hclose =>
      -- the quote is not closed: the scan goes on inside the value
      have hskip := assignments_key (hkey s) (fun _ groups =>
        ⟨quoted_refuses hclose groups, Refuses.plus (Refuses.cls (by simp))⟩) before
      rw [takeWhile_append_of_dropWhile hrest, assignments_quote] at hskip
      exact ⟨_, hskip⟩
  | case4 s name behind hrest hempty content behind' hclose ih =>
      have hs := takeWhile_append_of_dropWhile hrest
      have hbehind : '\n' ∉ behind := htail (u := ['=', '"']) (htail (hs ▸ hlf))
      have hquotable := quotable_of_closeQuote hbehind hclose
      have heq := closeQuote_eq hclose
      subst heq
      have hname : name ≠ [] := fun h => hempty (List.isEmpty_iff.mpr h)
      obtain ⟨before', hrec⟩ := ih (htail (u := ['"']) (htail hbehind))
        ((name ++ '=' :: quotes content).reverse ++ before)
      refine ⟨before', ?_⟩
      have htext : s = (name ++ '=' :: quotes content) ++ behind' := by
        rw [← hs]
        simp [name, quotes]
      rw [htext, assigns_quoted hname (hkey s) hquotable before behind', hrec]
      rfl
  | case5 s name behind hnot hrest value hempty ih =>
      have hs := takeWhile_append_of_dropWhile hrest
      obtain ⟨before', hrec⟩ := ih (htail (u := ['=']) (htail (hs ▸ hlf)))
        ('=' :: ((s.takeWhile isKeyChar).reverse ++ before))
      refine ⟨before', ?_⟩
      have hquote : behind.head? ≠ some '"' := by
        intro hhead
        obtain ⟨rest, hrest⟩ := List.head?_eq_some_iff.mp hhead
        exact hnot rest hrest
      -- a key or a value is missing, so neither alternative takes anything here
      have hskip := assignments_key (hkey s) (fun hne => by
        rcases Bool.or_eq_true_iff.mp hempty with h | h
        · exact absurd (List.isEmpty_iff.mp h) hne
        · exact values_refuse hquote (List.isEmpty_iff.mp h)) before
      rw [hs] at hskip
      rw [hskip]
      exact hrec
  | case6 s name behind hnot hrest value hempty ih =>
      have hs := takeWhile_append_of_dropWhile hrest
      obtain ⟨hname, hvalue⟩ : name ≠ [] ∧ value ≠ [] := by
        simpa using hempty
      have hsplit : value ++ behind.dropWhile isValueChar = behind :=
        List.takeWhile_append_dropWhile
      have hbehind : '\n' ∉ behind := htail (u := ['=']) (htail (hs ▸ hlf))
      obtain ⟨before', hfield⟩ := assignments_value hname (hkey s) hvalue
        (fun c hc => List.mem_takeWhile_imp hc) (fun c hc => head_dropWhile hc) before
      rw [hsplit] at hfield
      obtain ⟨before'', hrec⟩ := ih (htail (hsplit ▸ hbehind)) before'
      refine ⟨before'', ?_⟩
      rw [hs] at hfield
      rw [hfield, hrec]
      rfl
  | case7 s c behind hnot hne hrest ih =>
      have hs := takeWhile_append_of_dropWhile hrest
      have hc : isKeyChar c = false := head_dropWhile (s := s) (by rw [hrest]; rfl)
      obtain ⟨before', hrec⟩ := ih (htail (u := [c]) (htail (hs ▸ hlf)))
        (c :: ((s.takeWhile isKeyChar).reverse ++ before))
      refine ⟨before', ?_⟩
      -- what ends the key is not `=`: no field, and the scan passes it
      have hhead : ∀ d, (c :: behind).head? = some d → isKeyChar d = false ∧ d ≠ '=' := by
        intro d hd
        cases hd
        exact ⟨hc, hne⟩
      have hskip := assignments_behind (equals_not_mem_key (hkey s)) hhead before
      rw [hs] at hskip
      rw [hskip]
      exact (assigns_char hc hne _ behind).trans hrec

/-! ## Values that are cut off -/

/-- In a value that is not closed, no quote stands behind `=`. -/
theorem no_opening {s : PyStr} (h : closeQuote s = none) (u v : PyStr) :
    s ≠ u ++ '=' :: '"' :: v := by
  intro hs
  fun_induction closeQuote s generalizing u with
  | case1 => cases u <;> cases hs
  | case2 => cases h
  | case3 c rest ih =>
      have hrest := Option.map_eq_none_iff.mp h
      rcases u with - | ⟨a, - | ⟨b, u⟩⟩
      · exact absurd (List.cons.inj hs).1 (by decide)
      · rw [(List.cons.inj (List.cons.inj hs).2).2] at hrest
        cases hrest
      · exact ih hrest u (List.cons.inj (List.cons.inj hs).2).2
  | case4 c rest hquote hback ih =>
      have hrest := Option.map_eq_none_iff.mp h
      cases u with
      | nil =>
          rw [(List.cons.inj hs).2] at hrest
          cases hrest
      | cons a u => exact ih hrest u (List.cons.inj hs).2

theorem cut_none {s : PyStr} (h : ∀ u v, s ≠ u ++ '=' :: '"' :: v) : (reading s).cut = none := by
  have hbehind : ∀ {s u t : PyStr}, (∀ u v, s ≠ u ++ '=' :: '"' :: v) → u ++ t = s →
      ∀ u v, t ≠ u ++ '=' :: '"' :: v := by
    intro s u t h hs v w ht
    exact h (u ++ v) w (by rw [← hs, ht, List.append_assoc])
  fun_induction reading s with
  | case1 => rfl
  | case2 s name behind hrest _ _ =>
      exact absurd (takeWhile_append_of_dropWhile hrest).symm (h _ behind)
  | case3 s name behind hrest _ _ =>
      exact absurd (takeWhile_append_of_dropWhile hrest).symm (h _ behind)
  | case4 s name behind hrest _ _ _ _ _ =>
      exact absurd (takeWhile_append_of_dropWhile hrest).symm (h _ behind)
  | case5 s name behind _ hrest value _ ih =>
      exact ih (hbehind (u := ['=']) (hbehind h (takeWhile_append_of_dropWhile hrest)) rfl)
  | case6 s name behind _ hrest value _ ih =>
      have hvalue := hbehind (u := ['=']) (hbehind h (takeWhile_append_of_dropWhile hrest)) rfl
      exact ih (hbehind hvalue List.takeWhile_append_dropWhile)
  | case7 s c behind _ _ hrest ih =>
      exact ih (hbehind (u := [c]) (hbehind h (takeWhile_append_of_dropWhile hrest)) rfl)

theorem closeQuote_of_cut {s text : PyStr} (h : (reading s).cut = some text) :
    closeQuote text = none ∧ text <:+ s := by
  have hsuffix : ∀ {s rest : PyStr}, s.dropWhile isKeyChar = rest → rest <:+ s :=
    fun hrest => hrest ▸ List.dropWhile_suffix _
  have hcons : ∀ (c : Char) (s : PyStr), s <:+ c :: s := fun c s => List.suffix_cons c s
  fun_induction reading s with
  | case1 => cases h
  | case2 s name behind hrest _ ih =>
      obtain ⟨hclose, htext⟩ := ih h
      exact ⟨hclose, ((htext.trans (hcons _ _)).trans (hcons _ _)).trans (hsuffix hrest)⟩
  | case3 s name behind hrest _ hclose =>
      cases h
      exact ⟨hclose, ((hcons _ _).trans (hcons _ _)).trans (hsuffix hrest)⟩
  | case4 s name behind hrest _ content behind' hclose ih =>
      obtain ⟨hnone, htext⟩ := ih h
      have hinside : behind' <:+ behind := by
        rw [closeQuote_eq hclose]
        exact (hcons _ _).trans (List.suffix_append _ _)
      exact ⟨hnone, (((htext.trans hinside).trans (hcons _ _)).trans (hcons _ _)).trans
        (hsuffix hrest)⟩
  | case5 s name behind _ hrest value _ ih =>
      obtain ⟨hclose, htext⟩ := ih h
      exact ⟨hclose, (htext.trans (hcons _ _)).trans (hsuffix hrest)⟩
  | case6 s name behind _ hrest value _ ih =>
      obtain ⟨hclose, htext⟩ := ih h
      have hbehind := (htext.trans (List.dropWhile_suffix _)).trans (hcons '=' behind)
      exact ⟨hclose, hbehind.trans (hsuffix hrest)⟩
  | case7 s c behind _ _ hrest ih =>
      obtain ⟨hclose, htext⟩ := ih h
      exact ⟨hclose, (htext.trans (hcons _ _)).trans (hsuffix hrest)⟩

/-- The fields in a value that is not closed, read as if it were none. -/
def Reading.cutFields (r : Reading) : List (PyStr × PyStr) :=
  r.cut.elim [] fun text => (reading text).fields

/-- **All that the scan finds**: the fields outside quoted values, and those in a value that
was cut off. -/
theorem assignments_eq {s : PyStr} (hlf : '\n' ∉ s) (before : List Char) :
    assignments before s = (reading s).fields ++ (reading s).cutFields := by
  obtain ⟨before', hscan⟩ := assignments_reading s hlf before
  rw [hscan, Reading.cutFields]
  cases hcut : (reading s).cut with
  | none => rfl
  | some text =>
      obtain ⟨hclose, htext⟩ := closeQuote_of_cut hcut
      have hline : '\n' ∉ text := fun h => hlf (htext.subset h)
      obtain ⟨before'', hinside⟩ := assignments_reading text hline before'
      rw [cut_none (no_opening hclose), Option.elim_none, List.append_nil] at hinside
      rw [Option.elim_some, Option.elim_some, hinside]

/-! ## In front of the first field -/

theorem reading_skip {s : PyStr} {c : Char} {rest : PyStr} (hne : c ≠ '=')
    (h : s.dropWhile isKeyChar = c :: rest) : reading s = reading rest := by
  rw [reading]
  split
  next hrest => rw [h] at hrest; cases hrest
  next hrest => rw [h] at hrest; cases hrest; exact absurd rfl hne
  next hrest => rw [h] at hrest; cases hrest; exact absurd rfl hne
  next hrest => rw [h] at hrest; cases hrest; rfl

theorem reading_end {s : PyStr} (h : s.dropWhile isKeyChar = []) : reading s = ⟨[], none⟩ := by
  rw [reading]
  split
  next => rfl
  next hrest => rw [h] at hrest; cases hrest
  next hrest => rw [h] at hrest; cases hrest
  next hrest => rw [h] at hrest; cases hrest

/-- A text without `=` in front of a text that goes on no key changes nothing. -/
theorem reading_append {u s : PyStr} (hu : '=' ∉ u)
    (hs : ∀ c, s.head? = some c → isKeyChar c = false ∧ c ≠ '=') :
    reading (u ++ s) = reading s := by
  induction hn : u.length using Nat.strongRecOn generalizing u with
  | ind n ih =>
      cases hdrop : u.dropWhile isKeyChar with
      | nil =>
          -- all of `u` is key characters, and the key ends with it
          have hall : (u ++ s).dropWhile isKeyChar = s.dropWhile isKeyChar := by
            rw [List.dropWhile_append, hdrop]
            rfl
          cases s with
          | nil => rw [reading_end hall, reading_end rfl]
          | cons c s =>
              obtain ⟨hc, hne⟩ := hs c rfl
              have hhead : (c :: s).dropWhile isKeyChar = c :: s :=
                List.dropWhile_cons_of_neg (by rw [hc]; exact Bool.false_ne_true)
              rw [reading_skip hne (hall.trans hhead), reading_skip hne hhead]
      | cons c rest =>
          have hsuffix : c :: rest <:+ u := hdrop ▸ List.dropWhile_suffix _
          have hne : c ≠ '=' := fun h => hu (hsuffix.subset (h ▸ List.mem_cons_self))
          have hlt : rest.length < n := hn ▸ hsuffix.length_le
          have hall : (u ++ s).dropWhile isKeyChar = c :: (rest ++ s) := by
            rw [List.dropWhile_append, hdrop]
            rfl
          rw [reading_skip hne hall]
          exact ih _ hlt (fun h => hu (hsuffix.subset (List.mem_cons_of_mem c h))) rfl

end SrxProbe.Collectors
