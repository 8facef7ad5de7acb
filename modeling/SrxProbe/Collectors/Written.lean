import SrxProbe.Collectors.Record
import SrxProbe.Lib.RegexLang

/-!
# Records as written

The parts of an RFC5424 line as a source may write them: with any white space between
them, and with any backslash in a value. The patterns take each part as it stands, and
they take nothing else.
-/

namespace SrxProbe.Collectors

open SrxProbe.Lib SrxProbe.Lib.Regex

/-! ## The parts -/

/-- White space between two parts. -/
structure Gap where
  text : PyStr
  nonempty : text ≠ []
  blank : Blank text

/-- What may stand between the quotes of a value: characters behind a backslash, and
plain characters. -/
def isQuotable (plain : Char → Bool) : PyStr → Bool
  | [] => true
  | '\\' :: c :: rest => c ≠ '\n' && isQuotable plain rest
  | c :: rest => plain c && isQuotable plain rest

/-- `[^"\\]`. -/
def isPlain (c : Char) : Bool := c ≠ '"' && c ≠ '\\'

/-- `[^"\\\]]`. -/
def isSdPlain (c : Char) : Bool := c ≠ '"' && c ≠ '\\' && c ≠ ']'

structure WrittenParam where
  gap : Gap
  name : PyStr
  content : PyStr
  name_nonempty : name ≠ []
  name_chars : ∀ c ∈ name, isKeyChar c = true
  quotable : isQuotable isSdPlain content = true

structure WrittenElement where
  id : PyStr
  params : List WrittenParam
  id_nonempty : id ≠ []
  id_chars : ∀ c ∈ id, isIdChar c = true

/-- `"content"`. -/
def quotes (content : PyStr) : PyStr := '"' :: (content ++ ['"'])

/-- `name="content"`. -/
def WrittenParam.assignment (param : WrittenParam) : PyStr :=
  param.name ++ '=' :: quotes param.content

def WrittenParam.text (param : WrittenParam) : PyStr := param.gap.text ++ param.assignment

/-- The name and the unescaped value. -/
def WrittenParam.pair (param : WrittenParam) : PyStr × PyStr := (param.name, unescape param.content)

def WrittenElement.text (e : WrittenElement) : PyStr :=
  '[' :: (e.id ++ (e.params.flatMap WrittenParam.text ++ [']']))

def WrittenElement.pairs (e : WrittenElement) : List (PyStr × PyStr) :=
  e.params.map WrittenParam.pair

def elementsText (elements : List WrittenElement) : PyStr := elements.flatMap WrittenElement.text

/-! ## Quoted values -/

section quoted

variable {p : Char → Bool} {content rest : List Char} {groups : List (Nat × PyStr)}

/-- A class of plain characters. -/
def Unescaped (p : Char → Bool) : Prop := p '"' = false ∧ p '\\' = false

theorem isQuotable_mono {p' : Char → Bool} (hp : ∀ c, p c = true → p' c = true)
    (h : isQuotable p content = true) : isQuotable p' content = true := by
  fun_induction isQuotable p content with
  | case1 => rfl
  | case2 c content ih =>
      rw [Bool.and_eq_true] at h
      rw [isQuotable, h.1, ih h.2]
      rfl
  | case3 c content hback ih =>
      rw [Bool.and_eq_true] at h
      rw [isQuotable.eq_3 _ _ _ hback, hp c h.1, ih h.2]
      rfl

theorem isQuotable_isPlain (h : isQuotable isSdPlain content = true) :
    isQuotable isPlain content = true := by
  refine isQuotable_mono ?_ h
  intro c hc
  exact (Bool.and_eq_true_iff.mp hc).1

/-- The inside of a quoted value. -/
theorem eats_quotable (hp : Unescaped p) (h : isQuotable p content = true) :
    Eats (star (alt (cat [chr '\\', anyChar]) (cls p))) content ('"' :: rest) groups groups := by
  fun_induction isQuotable p content with
  | case1 =>
      -- at the closing quote neither alternative goes on
      apply Eats.starDone
      apply Refuses.alt
      · exact Refuses.cat_cons (Refuses.chr (by simp))
      · apply Refuses.cls
        intro c hc
        cases hc
        exact hp.1
  | case2 c content ih =>
      rw [Bool.and_eq_true, decide_eq_true_eq] at h
      have heq : '\\' :: c :: content = ['\\', c] ++ content := rfl
      rw [heq]
      refine Eats.starStep (Eats.altLeft ?_) (List.cons_ne_nil _ _) (ih h.2)
      exact Eats.cat_chr (Eats.cat_cls (by simpa using h.1) Eats.cat_nil)
  | case3 c content _ ih =>
      rw [Bool.and_eq_true] at h
      have hback : c ≠ '\\' := by
        rintro rfl
        rw [hp.2] at h
        cases h.1
      have heq : c :: content = [c] ++ content := rfl
      rw [heq]
      -- the first alternative takes an escape only, and this is none
      refine Eats.starStep (Eats.altRight ?_ (Eats.cls h.1)) (List.cons_ne_nil _ _) (ih h.2)
      exact Refuses.cat_cons (Refuses.chr (by simpa using hback))

theorem eats_quoted (h : isQuotable isPlain content = true) :
    Eats quoted (quotes content) rest groups groups := by
  have hend : Eats (cat [chr '"']) ['"'] rest groups groups := Eats.cat_last Eats.chr
  exact Eats.cat_chr (Eats.cat_cons (eats_quotable ⟨by decide, by decide⟩ h) hend)

theorem eats_sdQuoted (h : isQuotable isSdPlain content = true) :
    Eats sdQuoted (quotes content) rest groups groups := by
  have hend : Eats (cat [chr '"']) ['"'] rest groups groups := Eats.cat_last Eats.chr
  exact Eats.cat_chr (Eats.cat_cons (eats_quotable ⟨by decide, by decide⟩ h) hend)

/-- What a quoted value has between its quotes. -/
theorem isQuotable_of_mem_lang (hp : Unescaped p) {w : List Char}
    (h : w ∈ (star (alt (cat [chr '\\', anyChar]) (cls p))).lang) : isQuotable p w = true := by
  obtain ⟨words, rfl, hwords⟩ := Language.mem_kstar.mp h
  clear h
  induction words with
  | nil => rfl
  | cons word words ih =>
      have hrec := ih fun v hv => hwords v (List.mem_cons_of_mem _ hv)
      rw [List.flatten_cons]
      -- one turn of the loop is an escape or a plain character
      rcases mem_lang_alt.mp (hwords word List.mem_cons_self) with hesc | ⟨c, hc, rfl⟩
      · obtain ⟨v, hv, u, hu, rfl⟩ := mem_lang_cat_cons.mp hesc
        obtain ⟨c, hc, rfl⟩ := mem_lang_cat_last.mp hu
        rw [mem_lang_chr.mp hv]
        show (decide (c ≠ '\n') && isQuotable p words.flatten) = true
        rw [hrec, Bool.and_true]
        exact hc
      · have hne : c ≠ '\\' := by
          rintro rfl
          rw [hp.2] at hc
          cases hc
        rw [List.singleton_append, isQuotable.eq_3 _ _ _ (fun _ _ h => absurd h hne), hc, hrec]
        rfl

end quoted

/-! ## White space -/

/-- A text that does not begin with white space. -/
def SolidHead (text : List Char) : Prop := ∀ c, text.head? = some c → isSpace c = false

theorem solidHead_append {w rest : List Char} (hne : w ≠ []) (hw : ∀ c ∈ w, isSpace c = false) :
    SolidHead (w ++ rest) := by
  cases w with
  | nil => exact absurd rfl hne
  | cons c w =>
      intro d hd
      cases hd
      exact hw c List.mem_cons_self

theorem Gap.eats (gap : Gap) {rest : List Char} {groups : List (Nat × PyStr)}
    (hrest : SolidHead rest) : Eats spaces gap.text rest groups groups :=
  Eats.plusCls gap.blank gap.nonempty hrest

/-- A gap begins with white space. -/
theorem Gap.head (gap : Gap) (rest : List Char) :
    ∃ c, (gap.text ++ rest).head? = some c ∧ isSpace c = true := by
  cases htext : gap.text with
  | nil => exact absurd htext gap.nonempty
  | cons c text => exact ⟨c, rfl, gap.blank c (by rw [htext]; exact List.mem_cons_self)⟩

theorem exists_gap {w : List Char} (h : w ∈ spaces.lang) : ∃ gap : Gap, gap.text = w := by
  obtain ⟨hne, hblank⟩ := over_of_mem_lang_plus h
  exact ⟨⟨w, hne, hblank⟩, rfl⟩

/-! ## Elements -/

theorem eats_key {name : PyStr} (hne : name ≠ []) (hchars : ∀ c ∈ name, isKeyChar c = true)
    (rest : List Char) (groups : List (Nat × PyStr)) :
    Eats key name ('=' :: rest) groups groups := by
  refine Eats.plusCls hchars hne ?_
  intro c hc
  cases hc
  decide

theorem WrittenParam.solidHead (param : WrittenParam) (rest : List Char) :
    SolidHead (param.assignment ++ rest) := by
  rw [WrittenParam.assignment, List.append_assoc]
  exact solidHead_append param.name_nonempty
    fun c hc => isSpace_of_isKeyChar (param.name_chars c hc)

theorem WrittenParam.eats (param : WrittenParam) (rest : List Char)
    (groups : List (Nat × PyStr)) :
    Eats (cat [spaces, key, chr '=', sdQuoted]) param.text rest groups groups := by
  have hvalue : Eats (cat [chr '=', sdQuoted]) ('=' :: quotes param.content) rest groups groups :=
    Eats.cat_chr (Eats.cat_last (eats_sdQuoted param.quotable))
  exact Eats.cat_cons (param.gap.eats (param.solidHead rest))
    (Eats.cat_cons (eats_key param.name_nonempty param.name_chars _ groups) hvalue)

theorem WrittenParam.text_ne_nil (param : WrittenParam) : param.text ≠ [] :=
  List.append_ne_nil_of_left_ne_nil param.gap.nonempty _

theorem eats_writtenParams (params : List WrittenParam) (rest : List Char)
    (groups : List (Nat × PyStr)) :
    Eats (star (cat [spaces, key, chr '=', sdQuoted])) (params.flatMap WrittenParam.text)
      (']' :: rest) groups groups := by
  induction params with
  | nil =>
      refine Eats.starDone (Refuses.cat_cons (Refuses.plus (Refuses.cls ?_)))
      intro c hc
      cases hc
      decide
  | cons param params ih =>
      rw [List.flatMap_cons]
      exact Eats.starStep (param.eats _ groups) param.text_ne_nil ih

/-- What follows the id of an element is white space or the closing bracket. -/
theorem head_writtenParams (params : List WrittenParam) (rest : List Char) (c : Char)
    (h : (params.flatMap WrittenParam.text ++ (']' :: rest)).head? = some c) :
    isIdChar c = false := by
  cases params with
  | nil =>
      cases h
      decide
  | cons param params =>
      obtain ⟨d, hd, hspace⟩ := param.gap.head
        (param.assignment ++ (params.flatMap WrittenParam.text ++ (']' :: rest)))
      rw [List.flatMap_cons, WrittenParam.text, List.append_assoc, List.append_assoc, hd] at h
      cases h
      simp [isIdChar, hspace]

theorem WrittenElement.eats (e : WrittenElement) (rest : List Char) :
    Eats sdRe e.text rest [] [] := by
  have hid : Eats (plus (cls isIdChar)) e.id
      ((e.params.flatMap WrittenParam.text ++ [']']) ++ rest) [] [] := by
    refine Eats.plusCls e.id_chars e.id_nonempty ?_
    intro c hc
    rw [List.append_assoc] at hc
    exact head_writtenParams e.params rest c hc
  refine Eats.cat_chr (Eats.cat_cons hid (Eats.cat_cons ?_ (Eats.cat_last Eats.chr)))
  exact eats_writtenParams e.params rest []

theorem exists_param {w : List Char} (h : w ∈ (cat [spaces, key, chr '=', sdQuoted]).lang) :
    ∃ param : WrittenParam, param.text = w := by
  obtain ⟨gap, hgap, w₁, h₁, rfl⟩ := mem_lang_cat_cons.mp h
  obtain ⟨gap, rfl⟩ := exists_gap hgap
  obtain ⟨name, hname, w₂, h₂, rfl⟩ := mem_lang_cat_cons.mp h₁
  obtain ⟨hne, hchars⟩ := over_of_mem_lang_plus hname
  obtain ⟨eq, heq, w₃, h₃, rfl⟩ := mem_lang_cat_cons.mp h₂
  obtain ⟨quote, hquote, w₄, h₄, rfl⟩ := mem_lang_cat_cons.mp (mem_lang_cat_last.mp h₃)
  obtain ⟨content, hcontent, close, hclose, rfl⟩ := mem_lang_cat_cons.mp h₄
  rw [mem_lang_chr.mp heq, mem_lang_chr.mp hquote, mem_lang_chr.mp (mem_lang_cat_last.mp hclose)]
  exact ⟨⟨gap, name, content, hne, hchars,
    isQuotable_of_mem_lang ⟨by decide, by decide⟩ hcontent⟩, rfl⟩

theorem exists_params {w : List Char}
    (h : w ∈ (star (cat [spaces, key, chr '=', sdQuoted])).lang) :
    ∃ params : List WrittenParam, params.flatMap WrittenParam.text = w := by
  obtain ⟨words, rfl, hwords⟩ := Language.mem_kstar.mp h
  clear h
  induction words with
  | nil => exact ⟨[], rfl⟩
  | cons word words ih =>
      obtain ⟨params, hparams⟩ := ih fun v hv => hwords v (List.mem_cons_of_mem _ hv)
      obtain ⟨param, hparam⟩ := exists_param (hwords word List.mem_cons_self)
      refine ⟨param :: params, ?_⟩
      rw [List.flatMap_cons, hparams, hparam, List.flatten_cons]

/-- What the pattern of an element takes is an element. -/
theorem exists_element {w : List Char} (h : w ∈ sdRe.lang) : ∃ e : WrittenElement, e.text = w := by
  obtain ⟨bracket, hopen, w₁, h₁, rfl⟩ := mem_lang_cat_cons.mp h
  obtain ⟨id, hid, w₂, h₂, rfl⟩ := mem_lang_cat_cons.mp h₁
  obtain ⟨hne, hchars⟩ := over_of_mem_lang_plus hid
  obtain ⟨params, hparams, close, hclose, rfl⟩ := mem_lang_cat_cons.mp h₂
  obtain ⟨params, rfl⟩ := exists_params hparams
  rw [mem_lang_chr.mp hopen, mem_lang_chr.mp (mem_lang_cat_last.mp hclose)]
  exact ⟨⟨id, params, hne, hchars⟩, rfl⟩

/-- The loop takes element by element. -/
theorem sdElements_append (elements : List WrittenElement) (before tail : List Char) {n : Nat}
    (hn : (elementsText elements).length ≤ n) :
    sdElements n before (elementsText elements ++ tail) =
      (sdElements (n - elements.length) ((elementsText elements).reverse ++ before) tail).map
        fun found => (elements.map WrittenElement.text ++ found.1, found.2) := by
  induction elements generalizing before n with
  | nil =>
      cases h : sdElements n before tail <;> simp [elementsText, h]
  | cons e elements ih =>
      have htext : elementsText (e :: elements) = e.text ++ elementsText elements := rfl
      have hpos : 0 < e.text.length := Nat.succ_pos _
      rw [htext, List.length_append] at hn
      obtain ⟨m, rfl⟩ : ∃ m, n = m + 1 := ⟨n - 1, by omega⟩
      have hmatch := matchAt_of_eats before (e.eats (elementsText elements ++ tail))
      rw [htext, List.append_assoc, WrittenElement.text, List.cons_append, sdElements,
        ← List.cons_append, ← WrittenElement.text, hmatch]
      show (sdElements m _ (elementsText elements ++ tail)).bind _ = _
      rw [ih _ (by omega), List.length_cons, Nat.add_sub_add_right, List.reverse_append,
        List.append_assoc]
      cases sdElements (m - elements.length) _ tail <;> rfl

/-- The loop over the elements stops behind the last one. -/
theorem sdElements_text (elements : List WrittenElement) (before tail : List Char)
    (htail : tail.head? ≠ some '[') {n : Nat} (hn : (elementsText elements).length ≤ n) :
    sdElements n before (elementsText elements ++ tail) =
      some (elements.map WrittenElement.text, tail) := by
  have hstop : ∀ m before, sdElements m before tail = some ([], tail) := by
    intro m before
    unfold sdElements
    split
    · exact absurd rfl htail
    · rfl
  rw [sdElements_append elements before tail hn, hstop, Option.map_some, List.append_nil]

/-- What the loop finds are elements. -/
theorem exists_elements {n : Nat} {before rest tail : List Char} {chunks : List PyStr}
    (h : sdElements n before rest = some (chunks, tail)) :
    ∃ elements : List WrittenElement, chunks = elements.map WrittenElement.text ∧
      rest = elementsText elements ++ tail := by
  fun_induction sdElements n before rest generalizing chunks tail with
  | case1 => cases h
  | case2 n before rest m hmatch ih =>
      obtain ⟨⟨chunks', tail'⟩, hrest, h⟩ := Option.bind_eq_some_iff.mp h
      cases h
      obtain ⟨elements, rfl, hsplit⟩ := ih hrest
      obtain ⟨hword, htext, -⟩ := text_of_matchAt hmatch
      obtain ⟨e, he⟩ := exists_element hword
      refine ⟨e :: elements, by rw [List.map_cons, he], ?_⟩
      rw [htext, hsplit, ← he, ← List.append_assoc]
      rfl
  | case3 =>
      cases h
      exact ⟨[], rfl, rfl⟩

theorem structuredText_nil {tail : PyStr} (htail : ∀ c, tail.head? = some c → c = ' ') :
    structuredText ('-' :: tail) = some [] := by
  unfold structuredText
  cases tail with
  | nil => rfl
  | cons c tail =>
      rw [htail c rfl]
      rfl

theorem structuredText_bracket (rest : PyStr) : structuredText ('[' :: rest) =
    (sdElements (rest.length + 1) [] ('[' :: rest)).bind fun (chunks, tail) =>
      if chunks.isEmpty || (!tail.isEmpty && tail.head? ≠ some ' ') then none
      else some ([' '].intercalate chunks) := rfl

theorem elementsText_cons (e : WrittenElement) (elements : List WrittenElement) :
    ∃ rest, elementsText (e :: elements) = '[' :: rest := ⟨_, rfl⟩

/-- An element takes a character. -/
theorem length_le_elementsText (elements : List WrittenElement) :
    elements.length ≤ (elementsText elements).length := by
  induction elements with
  | nil => exact Nat.le_refl _
  | cons e elements ih =>
      have hpos : 0 < e.text.length := Nat.succ_pos _
      show elements.length + 1 ≤ (e.text ++ elementsText elements).length
      rw [List.length_append]
      omega

theorem structuredText_elements {elements : List WrittenElement} (hne : elements ≠ [])
    {tail : PyStr} (htail : ∀ c, tail.head? = some c → c = ' ') :
    structuredText (elementsText elements ++ tail) =
      some ([' '].intercalate (elements.map WrittenElement.text)) := by
  obtain ⟨e, elements, rfl⟩ := List.exists_cons_of_ne_nil hne
  have hstop : tail.head? ≠ some '[' := fun h => absurd (htail '[' h) (by decide)
  have hfound : sdElements ((elementsText (e :: elements) ++ tail).length) []
      (elementsText (e :: elements) ++ tail) =
        some ((e :: elements).map WrittenElement.text, tail) :=
    sdElements_text _ _ _ hstop (by rw [List.length_append]; omega)
  obtain ⟨rest, hrest⟩ := elementsText_cons e elements
  rw [hrest, List.cons_append] at hfound ⊢
  rw [structuredText_bracket, ← List.length_cons, hfound]
  -- behind the elements the text ends or goes on with a blank
  have hok : (!tail.isEmpty && decide (tail.head? ≠ some ' ')) = false := by
    cases tail with
    | nil => rfl
    | cons c tail =>
        rw [htail c rfl]
        rfl
  show (if ((e :: elements).map WrittenElement.text).isEmpty ||
      (!tail.isEmpty && decide (tail.head? ≠ some ' ')) then none
    else some ([' '].intercalate ((e :: elements).map WrittenElement.text))) = _
  rw [hok]
  rfl

/-- An element that is not whole is not taken for one. -/
theorem sdRe_cut (e : WrittenElement) {part : List Char} (hcut : part <+: e.text)
    (hne : part ≠ e.text) (before : List Char) : sdRe.matchAt before part = none := by
  cases hmatch : sdRe.matchAt before part with
  | none => rfl
  | some m =>
      obtain ⟨hword, htext, -⟩ := text_of_matchAt hmatch
      obtain ⟨e', he'⟩ := exists_element hword
      obtain ⟨u, hu⟩ := hcut
      -- both elements are what the pattern takes of the same text
      have hshort := matchAt_of_eats [] (e'.eats (m.rest ++ u))
      have hlong := matchAt_of_eats [] (e.eats [])
      have hsame : e'.text ++ (m.rest ++ u) = e.text ++ [] := by
        rw [he', ← List.append_assoc, ← htext, hu, List.append_nil]
      rw [hsame, hlong] at hshort
      have hrest : [] = m.rest ++ u := congrArg Match.rest (Option.some.inj hshort)
      have hnil : u = [] := (List.append_eq_nil_iff.mp hrest.symm).2
      rw [hnil, List.append_nil] at hu
      exact absurd hu hne

/-! ## The assignments of a text -/

/-- What the loop over `_KV_RE` assigns from a position on. -/
def assignments (before rest : List Char) : List (PyStr × PyStr) :=
  (kvRe.matchesFrom before rest).map keyValue

/-- Wherever `w` stands, it assigns `pairs` and the scan goes on behind it. -/
def Assigns (w : List Char) (pairs : List (PyStr × PyStr)) : Prop :=
  ∀ before rest, assignments before (w ++ rest) = pairs ++ assignments (w.reverse ++ before) rest

theorem Assigns.append {w w' : List Char} {pairs pairs' : List (PyStr × PyStr)}
    (h : Assigns w pairs) (h' : Assigns w' pairs') : Assigns (w ++ w') (pairs ++ pairs') := by
  intro before rest
  rw [List.append_assoc, h, h', List.reverse_append, List.append_assoc, List.append_assoc]

/-- A field is refused where the pattern of its value refuses what stands behind the key. -/
theorem field_refuses {i : Nat} {r : Regex} {text : List Char}
    (h : ∀ name behind, text = name ++ '=' :: behind → name ≠ [] →
      (∀ c ∈ name, isKeyChar c = true) → ∀ groups, Refuses r behind groups) :
    Refuses (cat [group i key, chr '=', r]) text [] := by
  apply Refuses.seq
  intro before s hs
  obtain ⟨t, ht, rfl⟩ := List.mem_map.mp hs
  obtain ⟨name, hname, hrest⟩ := (took_of_run t ht).word
  obtain ⟨hne, hchars⟩ := over_of_mem_lang_plus hname
  refine Refuses.cat_chr (fun behind hbehind => ?_) t.before
  rw [show t.rest = '=' :: behind from hbehind] at hrest
  exact Refuses.cat_cons (h name behind hrest hne hchars _)

/-- No assignment begins where neither pattern of a value takes what stands behind
the key. -/
theorem kvRe_refuses_of {text : List Char}
    (h : ∀ name behind, text = name ++ '=' :: behind → name ≠ [] →
      (∀ c ∈ name, isKeyChar c = true) → ∀ groups, Refuses quoted behind groups ∧
        Refuses (plus (cls fun c => !isSpace c && c ≠ ']' && c ≠ '"')) behind groups) :
    Refuses kvRe text [] := by
  refine Refuses.alt (field_refuses ?_) (field_refuses ?_)
  · intro name behind htext hne hchars groups
    exact Refuses.group (h name behind htext hne hchars groups).1
  · intro name behind htext hne hchars groups
    exact Refuses.group (h name behind htext hne hchars groups).2

/-- No assignment begins in a text that reaches no `=` before it leaves the key
characters. -/
theorem kvRe_refuses {u rest : List Char} (hu : '=' ∉ u)
    (hrest : ∀ d, rest.head? = some d → isKeyChar d = false ∧ d ≠ '=') :
    Refuses kvRe (u ++ rest) [] := by
  apply kvRe_refuses_of
  intro name behind htext hne hchars
  rcases List.append_eq_append_iff.mp htext with ⟨a, rfl, hbehind⟩ | ⟨a, rfl, hrest'⟩
  · cases a with
    | nil => exact absurd rfl (hrest '=' (by rw [hbehind]; rfl)).2
    | cons d a =>
        have hd := (hrest d (by rw [hbehind]; rfl)).1
        rw [hchars d (by simp)] at hd
        cases hd
  · cases a with
    | nil =>
        rw [List.nil_append] at hrest'
        exact absurd rfl (hrest '=' (by rw [← hrest']; rfl)).2
    | cons d a =>
        cases hrest'
        exact absurd (List.mem_append_right name List.mem_cons_self) hu

/-- A text assigns nothing if no assignment begins in it. -/
theorem assignments_skip {u rest : List Char}
    (h : ∀ u₁ u₂, u = u₁ ++ u₂ → u₂ ≠ [] → Refuses kvRe (u₂ ++ rest) []) (before : List Char) :
    assignments before (u ++ rest) = assignments (u.reverse ++ before) rest := by
  induction u generalizing before with
  | nil => rfl
  | cons c u ih =>
      have hhead : Refuses kvRe (c :: (u ++ rest)) [] := h [] (c :: u) rfl (List.cons_ne_nil c u)
      have hrec := ih (fun u₁ u₂ hsplit => h (c :: u₁) u₂ (by rw [hsplit]; rfl)) (c :: before)
      rw [List.cons_append, assignments, matchesFrom_skip hhead, List.reverse_cons,
        List.append_assoc]
      exact hrec

/-- Up to what follows a key without `=`, nothing is assigned. -/
theorem assignments_behind {u rest : List Char} (hu : '=' ∉ u)
    (hrest : ∀ d, rest.head? = some d → isKeyChar d = false ∧ d ≠ '=') (before : List Char) :
    assignments before (u ++ rest) = assignments (u.reverse ++ before) rest := by
  apply assignments_skip
  intro u₁ u₂ hsplit _
  exact kvRe_refuses (fun h => hu (hsplit ▸ List.mem_append_right u₁ h)) hrest

/-- Such a text assigns nothing. -/
theorem assigns_nothing {u : List Char} {d : Char} (hu : '=' ∉ u) (hd : isKeyChar d = false)
    (hne : d ≠ '=') : Assigns (u ++ [d]) [] := by
  intro before rest
  have hhead : ∀ e, (d :: rest).head? = some e → isKeyChar e = false ∧ e ≠ '=' := by
    intro e he
    cases he
    exact ⟨hd, hne⟩
  have hskip : Refuses kvRe (d :: rest) [] := kvRe_refuses (u := []) (by simp) hhead
  rw [List.append_assoc, List.singleton_append, assignments_behind hu hhead, assignments,
    matchesFrom_skip hskip, List.reverse_append]
  rfl

theorem assigns_char {d : Char} (hd : isKeyChar d = false) (hne : d ≠ '=') : Assigns [d] [] :=
  assigns_nothing (u := []) (by simp) hd hne

/-- A text without key characters and without `=` assigns nothing. -/
theorem assigns_other {u : List Char} (h : ∀ c ∈ u, isKeyChar c = false ∧ c ≠ '=') :
    Assigns u [] := by
  induction u with
  | nil => exact fun _ _ => rfl
  | cons c u ih =>
      obtain ⟨hc, hne⟩ := h c List.mem_cons_self
      exact (assigns_char hc hne).append (ih fun d hd => h d (List.mem_cons_of_mem c hd))

theorem other_of_isSpace {c : Char} (h : isSpace c = true) : isKeyChar c = false ∧ c ≠ '=' := by
  refine ⟨?_, ?_⟩
  · cases hkey : isKeyChar c with
    | false => rfl
    | true =>
        rw [isSpace_of_isKeyChar hkey] at h
        cases h
  · rintro rfl
    revert h
    decide

theorem Gap.assigns (gap : Gap) : Assigns gap.text [] :=
  assigns_other fun c hc => other_of_isSpace (gap.blank c hc)

/-- An assignment of a quoted value assigns it, unescaped. -/
theorem assigns_quoted {name content : PyStr} (hne : name ≠ [])
    (hchars : ∀ c ∈ name, isKeyChar c = true) (hcontent : isQuotable isPlain content = true) :
    Assigns (name ++ '=' :: quotes content) [(name, unescape content)] := by
  intro before rest
  have heats : Eats kvRe (name ++ '=' :: quotes content) rest [] [(2, quotes content), (1, name)] :=
    Eats.altLeft (Eats.cat_cons (Eats.group (eats_key hne hchars _ []))
      (Eats.cat_chr (Eats.cat_last (Eats.group (eats_quoted hcontent)))))
  have htext : name ++ '=' :: quotes content ≠ [] := by simp
  rw [assignments, matchesFrom_found heats htext, List.map_cons]
  have hvalue : keyValue ⟨before, name ++ '=' :: quotes content, rest,
      [(2, quotes content), (1, name)]⟩ = (name, unescape content) := by
    show (name, unescape ((quotes content).drop 1).dropLast) = _
    rw [quotes, List.drop_one, List.tail_cons, List.dropLast_concat]
  rw [hvalue]
  rfl

theorem WrittenParam.assigns (param : WrittenParam) : Assigns param.assignment [param.pair] :=
  assigns_quoted param.name_nonempty param.name_chars (isQuotable_isPlain param.quotable)

theorem assigns_writtenParams (params : List WrittenParam) :
    Assigns (params.flatMap WrittenParam.text) (params.map WrittenParam.pair) := by
  induction params with
  | nil => exact fun _ _ => rfl
  | cons param params ih => exact (param.gap.assigns.append param.assigns).append ih

theorem WrittenElement.assigns (e : WrittenElement) : Assigns e.text e.pairs := by
  have hopen : Assigns ['['] [] := assigns_char (by decide) (by decide)
  have hclose : Assigns [']'] [] := assigns_char (by decide) (by decide)
  have heq : '=' ∉ e.id := fun h => by simpa [isIdChar] using e.id_chars _ h
  have hid : ∀ d, isKeyChar d = false → d ≠ '=' → Assigns ('[' :: (e.id ++ [d])) [] :=
    fun d hd hne => hopen.append (assigns_nothing heq hd hne)
  unfold WrittenElement.text WrittenElement.pairs
  cases e.params with
  | nil => exact hid ']' (by decide) (by decide)
  | cons param params =>
      cases hgap : param.gap.text with
      | nil => exact absurd hgap param.gap.nonempty
      | cons d gap =>
          have hblank : ∀ c ∈ d :: gap, isKeyChar c = false ∧ c ≠ '=' :=
            fun c hc => other_of_isSpace (param.gap.blank c (hgap ▸ hc))
          obtain ⟨hd, hne⟩ := hblank d List.mem_cons_self
          have hrest : Assigns gap [] := assigns_other fun c hc =>
            hblank c (List.mem_cons_of_mem d hc)
          have hall := (((hid d hd hne).append hrest).append param.assigns).append
            ((assigns_writtenParams params).append hclose)
          simpa [WrittenParam.text, hgap] using hall

/-- The joined elements assign every parameter, in order. -/
theorem assigns_writtenElements (elements : List WrittenElement) :
    Assigns ([' '].intercalate (elements.map WrittenElement.text))
      (elements.flatMap WrittenElement.pairs) := by
  induction elements with
  | nil => exact fun _ _ => rfl
  | cons e elements ih =>
      have hspace : Assigns [' '] [] := assigns_char (by decide) (by decide)
      cases elements with
      | nil =>
          rw [List.map_singleton, List.intercalate_singleton, List.flatMap_singleton]
          exact e.assigns
      | cons e' elements =>
          rw [List.map_cons, List.map_cons, List.intercalate_cons_cons, List.flatMap_cons,
            List.append_assoc]
          rw [List.map_cons] at ih
          exact e.assigns.append (hspace.append ih)

theorem fieldsOf_writtenElements (elements : List WrittenElement) :
    fieldsOf ([' '].intercalate (elements.map WrittenElement.text)) =
      Dict.ofPairs (elements.flatMap WrittenElement.pairs) := by
  have h := assigns_writtenElements elements [] []
  rw [List.append_nil] at h
  have hend : assignments (([' '].intercalate (elements.map WrittenElement.text)).reverse ++ [])
      [] = [] := rfl
  rw [hend, List.append_nil] at h
  exact congrArg Dict.ofPairs h

/-! ## The header -/

/-- The header up to the structured data. -/
structure WrittenHeader where
  pri : PyStr
  versionHead : Char
  versionTail : PyStr
  versionGap : Gap
  timestamp : Token
  timestampGap : Gap
  host : Token
  hostGap : Gap
  app : Token
  appGap : Gap
  procid : Token
  procidGap : Gap
  msgid : Token
  msgidGap : Gap
  pri_nonempty : pri ≠ []
  pri_length : pri.length ≤ 3
  pri_digits : ∀ c ∈ pri, isDecimal c = true
  version_head : inRange '1' '9' versionHead = true
  version_digits : ∀ c ∈ versionTail, isDecimal c = true

namespace WrittenHeader

variable (h : WrittenHeader)

/-- `<PRI>VERSION`. -/
def mark : PyStr := '<' :: (h.pri ++ '>' :: h.versionHead :: h.versionTail)

/-- What follows the version. -/
def fields : PyStr :=
  h.versionGap.text ++ (h.timestamp.text ++ (h.timestampGap.text ++ (h.host.text ++
    (h.hostGap.text ++ (h.app.text ++ (h.appGap.text ++ (h.procid.text ++ (h.procidGap.text ++
    (h.msgid.text ++ h.msgidGap.text)))))))))

def text : PyStr := h.mark ++ h.fields

end WrittenHeader

section header

variable {r : Regex} {rs : List Regex} {t w rest : List Char}
  {groups groups' groups'' : List (Nat × PyStr)}

/-- A part of the header and the white space behind it. -/
theorem eats_word (gap : Gap) (hr : Eats r t (gap.text ++ (w ++ rest)) groups groups')
    (hw : SolidHead (w ++ rest)) (hrs : Eats (cat rs) w rest groups' groups'') :
    Eats (cat (r :: spaces :: rs)) (t ++ (gap.text ++ w)) rest groups groups'' :=
  Eats.cat_cons (by rwa [List.append_assoc]) (Eats.cat_cons (gap.eats hw) hrs)

theorem Token.eats (token : Token) (gap : Gap) (rest : List Char) :
    Eats nonspaces token.text (gap.text ++ rest) groups groups := by
  refine Eats.plusCls (fun c hc => by simp [token.solid c hc]) token.nonempty ?_
  intro c hc
  obtain ⟨d, hd, hspace⟩ := gap.head rest
  rw [hd] at hc
  cases hc
  simp [hspace]

theorem Token.solidHead (token : Token) (rest : List Char) : SolidHead (token.text ++ rest) :=
  solidHead_append token.nonempty token.solid

theorem eats_body (hline : '\n' ∉ t) :
    Eats (cat [group 2 (star anyChar), lineEnd]) t [] groups ((2, t) :: groups) := by
  have hbody : Eats (group 2 (star anyChar)) t ([] ++ []) groups ((2, t) :: groups) := by
    refine Eats.group (Eats.starCls ?_ nofun)
    intro c hc
    have hne : c ≠ '\n' := fun h => hline (h ▸ hc)
    simpa using hne
  have hend : Eats (cat [lineEnd]) [] [] ((2, t) :: groups) ((2, t) :: groups) :=
    Eats.cat_last (Eats.look fun _ => rfl)
  have h := Eats.cat_cons hbody hend
  rwa [List.append_nil] at h

end header

/-- White space is no digit. -/
theorem Gap.notDecimal (gap : Gap) (rest : List Char) (c : Char)
    (hc : (gap.text ++ rest).head? = some c) : isDecimal c = false := by
  obtain ⟨d, hd, hspace⟩ := gap.head rest
  rw [hd] at hc
  cases hc
  by_contra hdigit
  rw [(isDecimal_solid (Bool.not_eq_false _ ▸ hdigit)).1] at hspace
  cases hspace

theorem WrittenHeader.eats (h : WrittenHeader) {body : PyStr} (hline : '\n' ∉ body)
    (hsolid : SolidHead body) :
    Eats headerRe (h.text ++ body) [] [] [(2, body), (1, h.msgid.text)] := by
  have hpri : ∀ rest, Eats (reps (cls isDecimal) 2 1) h.pri ('>' :: rest) [] [] := by
    intro rest
    refine Eats.repsCls h.pri_digits (List.length_pos_iff.mpr h.pri_nonempty) h.pri_length ?_
    intro c hc
    cases hc
    decide
  have htail : ∀ rest, Eats (star (cls isDecimal)) h.versionTail (h.versionGap.text ++ rest)
      [] [] := fun rest => Eats.starCls h.version_digits (h.versionGap.notDecimal rest)
  have hbody : Eats (cat [group 1 nonspaces, spaces, group 2 (star anyChar), lineEnd])
      (h.msgid.text ++ (h.msgidGap.text ++ body)) [] [] [(2, body), (1, h.msgid.text)] :=
    eats_word h.msgidGap (Eats.group (h.msgid.eats _ _)) (by rwa [List.append_nil])
      (eats_body hline)
  -- a token ends at white space, and the gap behind it at the next token
  have htoken : ∀ (token next : Token) (gap : Gap) {rs : List Regex} {w : List Char}
      {groups : List (Nat × PyStr)}, Eats (cat rs) (next.text ++ w) [] [] groups →
      Eats (cat (nonspaces :: spaces :: rs)) (token.text ++ (gap.text ++ (next.text ++ w))) [] []
        groups := by
    intro token next gap rs w groups hrs
    refine eats_word gap (token.eats gap _) ?_ hrs
    rw [List.append_nil]
    exact next.solidHead w
  -- from the right to the left, as each pattern needs what follows it
  have hprocid := htoken h.procid h.msgid h.procidGap hbody
  have happ := htoken h.app h.procid h.appGap hprocid
  have hhost := htoken h.host h.app h.hostGap happ
  have htime := htoken h.timestamp h.host h.timestampGap hhost
  have hrest := eats_word h.versionGap (htail _)
    (by
      rw [List.append_nil]
      exact h.timestamp.solidHead _) htime
  have hall := Eats.cat_chr (c := '<') (Eats.cat_cons (hpri _)
    (Eats.cat_chr (c := '>') (Eats.cat_cls h.version_head hrest)))
  have hword : h.text ++ body = '<' :: (h.pri ++ '>' :: h.versionHead :: (h.versionTail ++
      (h.versionGap.text ++ (h.timestamp.text ++ (h.timestampGap.text ++ (h.host.text ++
      (h.hostGap.text ++ (h.app.text ++ (h.appGap.text ++ (h.procid.text ++ (h.procidGap.text ++
      (h.msgid.text ++ (h.msgidGap.text ++ body))))))))))))) := by
    simp [WrittenHeader.text, WrittenHeader.mark, WrittenHeader.fields]
  rw [hword]
  exact hall

/-- A line with a header is what its tag and its structured data are. -/
theorem WrittenHeader.lineText (h : WrittenHeader) {body : PyStr} (hline : '\n' ∉ body)
    (hsolid : SolidHead body) :
    lineText (h.text ++ body) = (tagRe.fullmatch h.msgid.text).bind fun _ =>
      (structuredText body).map fun fieldText => (h.msgid.text, fieldText) := by
  have hmatch := matchAt_of_eats [] (h.eats hline hsolid)
  rw [List.append_nil] at hmatch
  unfold Collectors.lineText
  rw [hmatch]
  show (tagRe.fullmatch h.msgid.text).bind (fun _ => (structuredText body).bind fun fieldText =>
    some (h.msgid.text, fieldText)) = _
  simp only [Option.map_eq_bind]
  rfl

theorem exists_token {w : List Char} (h : w ∈ nonspaces.lang) :
    ∃ token : Token, token.text = w := by
  obtain ⟨hne, hsolid⟩ := over_of_mem_lang_plus h
  exact ⟨⟨w, hne, fun c hc => by simpa using hsolid c hc⟩, rfl⟩

/-- A token and the gap behind it. -/
theorem exists_word {rs : List Regex} {w : List Char}
    (h : w ∈ (cat (nonspaces :: spaces :: rs)).lang) :
    ∃ (token : Token) (gap : Gap), ∃ u ∈ (cat rs).lang, token.text ++ (gap.text ++ u) = w := by
  obtain ⟨token, htoken, w₁, h₁, rfl⟩ := mem_lang_cat_cons.mp h
  obtain ⟨gap, hgap, u, hu, rfl⟩ := mem_lang_cat_cons.mp h₁
  obtain ⟨token, rfl⟩ := exists_token htoken
  obtain ⟨gap, rfl⟩ := exists_gap hgap
  exact ⟨token, gap, u, hu, rfl⟩

/-- What the header's pattern takes is a header with a body. -/
theorem exists_header {w : List Char} (h : w ∈ headerRe.lang) :
    ∃ (hdr : WrittenHeader) (body : PyStr), w = hdr.text ++ body ∧ SolidHead body := by
  obtain ⟨left, hleft, w₁, h₁, rfl⟩ := mem_lang_cat_cons.mp h
  obtain ⟨pri, hpri, w₂, h₂, rfl⟩ := mem_lang_cat_cons.mp h₁
  obtain ⟨right, hright, w₃, h₃, rfl⟩ := mem_lang_cat_cons.mp h₂
  obtain ⟨head, ⟨versionHead, hhead, rfl⟩, w₄, h₄, rfl⟩ := mem_lang_cat_cons.mp h₃
  obtain ⟨versionTail, htail, w₅, h₅, rfl⟩ := mem_lang_cat_cons.mp h₄
  obtain ⟨gap, hgap, w₆, h₆, rfl⟩ := mem_lang_cat_cons.mp h₅
  obtain ⟨versionGap, rfl⟩ := exists_gap hgap
  obtain ⟨timestamp, timestampGap, w₇, h₇, rfl⟩ := exists_word h₆
  obtain ⟨host, hostGap, w₈, h₈, rfl⟩ := exists_word h₇
  obtain ⟨app, appGap, w₉, h₉, rfl⟩ := exists_word h₈
  obtain ⟨procid, procidGap, w₁₀, h₁₀, rfl⟩ := exists_word h₉
  obtain ⟨msgid, msgidGap, w₁₁, h₁₁, rfl⟩ : ∃ (token : Token) (gap : Gap),
      ∃ u ∈ (cat [group 2 (star anyChar), lineEnd]).lang, token.text ++ (gap.text ++ u) = w₁₀ :=
    exists_word h₁₀
  obtain ⟨hlo, hhi, hdigits⟩ := over_of_mem_lang_reps hpri
  -- white space in front of the body belongs to the gap
  have hblank : Blank (w₁₁.takeWhile isSpace) := fun c hc => List.mem_takeWhile_imp hc
  have hne : msgidGap.text ++ w₁₁.takeWhile isSpace ≠ [] :=
    List.append_ne_nil_of_left_ne_nil msgidGap.nonempty _
  refine ⟨⟨pri, versionHead, versionTail, versionGap, timestamp, timestampGap, host, hostGap, app,
    appGap, procid, procidGap, msgid, ⟨_, hne, msgidGap.blank.append hblank⟩,
    List.length_pos_iff.mp hlo, hhi, hdigits, hhead, over_of_mem_lang_star htail⟩,
    w₁₁.dropWhile isSpace, ?_, ?_⟩
  · rw [mem_lang_chr.mp hleft, mem_lang_chr.mp hright]
    simp [WrittenHeader.text, WrittenHeader.mark, WrittenHeader.fields]
  · intro c hc
    have hnot := List.head?_dropWhile_not isSpace w₁₁
    rw [hc] at hnot
    exact hnot

theorem isDecimal_of_version {c : Char} (h : inRange '1' '9' c = true) : isDecimal c = true := by
  obtain ⟨hlo, hhi⟩ := inRange_iff.mp h
  have hrange : 0x30 ≤ c.toNat ∧ c.toNat < 0x30 + 10 :=
    ⟨le_trans (by decide) hlo, lt_of_le_of_lt hhi (by decide)⟩
  unfold isDecimal digitValue decimalZeros
  rw [List.findSome?_cons, if_pos hrange]
  rfl

/-- Behind the mark of a header a line is not taken for a legacy one. -/
theorem brokenHeaderRe_mark (h : WrittenHeader) {c : Char} (hc : isSpace c = true) (rest : PyStr) :
    (brokenHeaderRe.matchAt [] (h.mark ++ c :: rest)).isSome = true := by
  have hpri : ∀ rest, Eats digits h.pri ('>' :: rest) [] [] := by
    intro rest
    refine Eats.plusCls h.pri_digits h.pri_nonempty ?_
    intro d hd
    cases hd
    decide
  -- both patterns begin with the priority and the version, here with any digits
  have hversion : Eats digits (h.versionHead :: h.versionTail) ([c] ++ rest) [] [] := by
    refine Eats.plusCls ?_ (List.cons_ne_nil _ _) ?_
    · intro d hd
      rcases List.mem_cons.mp hd with rfl | hd
      · exact isDecimal_of_version h.version_head
      · exact h.version_digits d hd
    · intro d hd
      cases hd
      by_contra hdigit
      rw [(isDecimal_solid (Bool.not_eq_false _ ▸ hdigit)).1] at hc
      cases hc
  have hspace : Eats (cat [cls isSpace]) [c] rest [] [] := Eats.cat_cls hc Eats.cat_nil
  have hall : Eats brokenHeaderRe
      ('<' :: (h.pri ++ '>' :: ((h.versionHead :: h.versionTail) ++ [c]))) rest [] [] :=
    Eats.cat_chr (Eats.cat_cons (hpri _) (Eats.cat_chr (Eats.cat_cons hversion hspace)))
  have hword : h.mark ++ c :: rest =
      '<' :: (h.pri ++ '>' :: ((h.versionHead :: h.versionTail) ++ [c])) ++ rest := by
    simp [WrittenHeader.mark]
  rw [hword, matchAt_of_eats [] hall]
  rfl

/-- What has a header looks like an RFC5424 record. -/
theorem headerRe_none {line : PyStr} (hlast : line.getLast? ≠ some '\n')
    (h : brokenHeaderRe.matchAt [] line = none) : headerRe.matchAt [] line = none := by
  cases hmatch : headerRe.matchAt [] line with
  | none => rfl
  | some m =>
      obtain ⟨header, body, rfl, -⟩ := exists_header (mem_lang_of_matchAt rfl hmatch hlast)
      obtain ⟨c, rest, hfields, hspace⟩ :
          ∃ c rest, header.fields = c :: rest ∧ isSpace c = true := by
        obtain ⟨c, hc, hspace⟩ := header.versionGap.head (header.fields.drop
          header.versionGap.text.length)
        have hsplit : header.versionGap.text ++
            header.fields.drop header.versionGap.text.length = header.fields := by
          rw [WrittenHeader.fields, List.drop_left]
        rw [hsplit] at hc
        obtain ⟨rest, hrest⟩ := List.head?_eq_some_iff.mp hc
        exact ⟨c, rest, hrest, hspace⟩
      have hbroken := brokenHeaderRe_mark header hspace (rest ++ body)
      rw [WrittenHeader.text, List.append_assoc, hfields, List.cons_append] at h
      rw [h] at hbroken
      cases hbroken

end SrxProbe.Collectors
