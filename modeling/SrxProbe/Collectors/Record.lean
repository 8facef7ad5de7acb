import SrxProbe.Collectors.Syslog

/-!
# Well-formed RFC5424 records

The records a logging source can send: their parts with the grammar each obeys,
and the text they are sent as. A parameter value and the free text are any line.
-/

namespace SrxProbe.Collectors

open SrxProbe.Lib SrxProbe.Lib.Regex SrxProbe.Validation

/-- A header token: nonempty and without white space. -/
structure Token where
  text : PyStr
  nonempty : text ≠ []
  solid : ∀ c ∈ text, isSpace c = false

/-- A token from a check of its text. -/
def Token.ofText (text : PyStr) (h : (!text.isEmpty && text.all fun c => !isSpace c) = true) :
    Token where
  text := text
  nonempty := by
    rintro rfl
    cases h
  solid := by
    rw [Bool.and_eq_true, List.all_eq_true] at h
    intro c hc
    simpa using h.2 c hc

structure SdParam where
  name : PyStr
  value : PyStr
  name_nonempty : name ≠ []
  name_chars : ∀ c ∈ name, isKeyChar c = true
  value_line : '\n' ∉ value

structure SdElement where
  id : PyStr
  params : List SdParam
  id_nonempty : id ≠ []
  id_chars : ∀ c ∈ id, isIdChar c = true

/-- `<PRI>VERSION TIMESTAMP HOST APP PROCID MSGID SD`, with an optional message. -/
structure Record where
  pri : PyStr
  versionHead : Char
  versionTail : PyStr
  timestamp : Token
  host : Token
  app : Token
  procid : Token
  msgid : PyStr
  elements : List SdElement
  msg : Option PyStr
  pri_nonempty : pri ≠ []
  pri_length : pri.length ≤ 3
  pri_digits : ∀ c ∈ pri, isDecimal c = true
  version_head : inRange '1' '9' versionHead = true
  version_digits : ∀ c ∈ versionTail, isDecimal c = true
  msgid_tag : (tagRe.fullmatch msgid).isSome = true
  elements_nonempty : elements ≠ []
  msg_line : ∀ text, msg = some text → '\n' ∉ text

/-! ## Encoding -/

/-- The characters a parameter value escapes. -/
def isEscaped (c : Char) : Bool := c = '"' || c = '\\' || c = ']'

def escapeChar (c : Char) : PyStr := if isEscaped c then ['\\', c] else [c]

def escape (s : PyStr) : PyStr := s.flatMap escapeChar

def quote (s : PyStr) : PyStr := '"' :: (escape s ++ ['"'])

/-- `name="value"`. -/
def SdParam.assignment (param : SdParam) : PyStr := param.name ++ '=' :: quote param.value

def SdParam.encode (param : SdParam) : PyStr := ' ' :: param.assignment

def SdElement.encode (e : SdElement) : PyStr :=
  '[' :: (e.id ++ (e.params.flatMap SdParam.encode ++ [']']))

def encodeElements (elements : List SdElement) : PyStr := elements.flatMap SdElement.encode

namespace Record

def msgText (r : Record) : PyStr :=
  match r.msg with
  | none => []
  | some text => ' ' :: text

/-- The record up to its structured data. -/
def header (r : Record) : PyStr :=
  '<' :: (r.pri ++ '>' :: r.versionHead :: (r.versionTail ++ ' ' :: (r.timestamp.text ++
    ' ' :: (r.host.text ++ ' ' :: (r.app.text ++ ' ' :: (r.procid.text ++
    ' ' :: (r.msgid ++ [' '])))))))

def encode (r : Record) : PyStr := r.header ++ (encodeElements r.elements ++ r.msgText)

/-- The name and value of every parameter, in order. -/
def pairs (r : Record) : List (PyStr × PyStr) :=
  r.elements.flatMap fun e => e.params.map fun param => (param.name, param.value)

end Record

/-! ## The characters of the parts -/

theorem isSpace_eq_false {c : Char} (h : 0x20 < c.toNat) (h' : c.toNat < 0x85) :
    isSpace c = false := by
  simp only [isSpace, Bool.or_eq_false_iff, Bool.and_eq_false_iff, decide_eq_false_iff_not]
  omega

theorem inRange_iff {lo hi c : Char} :
    inRange lo hi c = true ↔ lo.toNat ≤ c.toNat ∧ c.toNat ≤ hi.toNat := by
  simp [inRange]

theorem isKeyChar_range {c : Char} (h : isKeyChar c = true) :
    0x2D ≤ c.toNat ∧ c.toNat ≤ 0x7A := by
  simp only [isKeyChar, Bool.or_eq_true, decide_eq_true_eq, inRange_iff] at h
  rcases h with ((((h | h) | h) | h) | h) | h
  · exact ⟨le_trans (by decide) h.1, le_trans h.2 (by decide)⟩
  · exact ⟨le_trans (by decide) h.1, h.2⟩
  · exact ⟨le_trans (by decide) h.1, le_trans h.2 (by decide)⟩
  all_goals
    rw [h]
    decide

theorem isKeyChar_of_tag {c : Char} (h : isTagChar c = true ∨ c = '_') : isKeyChar c = true := by
  simp only [isTagChar, isKeyChar, Bool.or_eq_true, decide_eq_true_eq] at h ⊢
  rcases h with (h | h) | h <;> simp [h]

theorem isSpace_of_isKeyChar {c : Char} (h : isKeyChar c = true) : isSpace c = false := by
  have hrange := isKeyChar_range h
  exact isSpace_eq_false (by omega) (by omega)

theorem ne_lf_of_isSpace {c : Char} (h : isSpace c = false) : c ≠ '\n' := by
  rintro rfl
  revert h
  decide

/-- A tag takes only `[A-Z0-9_]`. -/
theorem tagRe_over : tagRe.Over (fun c => isKeyChar c = true) := by
  have htag : ∀ c, isTagChar c = true → isKeyChar c = true :=
    fun c hc => isKeyChar_of_tag (.inl hc)
  have hupper : ∀ c, inRange 'A' 'Z' c = true → isKeyChar c = true :=
    fun c hc => htag c (by simp [isTagChar, hc])
  have hlow : ∀ c, (c == '_') = true → isKeyChar c = true := by
    intro c hc
    rw [beq_iff_eq.mp hc]
    rfl
  have hpart : (cat [chr '_', plus (cls isTagChar)]).Over (fun c => isKeyChar c = true) :=
    ⟨hlow, ⟨htag, htag⟩, trivial⟩
  exact ⟨trivial, ⟨hupper, ⟨htag, htag⟩, ⟨hpart, hpart⟩, trivial⟩, trivial, trivial⟩

namespace Record

theorem msgid_chars (r : Record) : ∀ c ∈ r.msgid, isKeyChar c = true := by
  obtain ⟨m, hm⟩ := Option.isSome_iff_exists.mp r.msgid_tag
  obtain ⟨s, hs, -⟩ := Option.map_eq_some_iff.mp hm
  have hempty : s.rest = [] := by simpa using List.find?_some hs
  obtain ⟨w, hrest, -, hw⟩ := tagRe_over.takes s (List.mem_of_find?_eq_some hs)
  intro c hc
  rw [hempty, List.append_nil] at hrest
  exact hw c (hrest ▸ hc)

theorem msgid_nonempty (r : Record) : r.msgid ≠ [] := by
  intro h
  have htag := r.msgid_tag
  rw [h] at htag
  revert htag
  decide

end Record

/-! ## No line feed -/

theorem lf_not_mem_escape {s : PyStr} (h : '\n' ∉ s) : '\n' ∉ escape s := by
  intro hmem
  obtain ⟨c, hc, hin⟩ := List.mem_flatMap.mp hmem
  unfold escapeChar at hin
  split at hin
  · rcases List.mem_cons.mp hin with hlf | hlf
    · exact absurd hlf (by decide)
    · exact h (List.mem_singleton.mp hlf ▸ hc)
  · exact h (List.mem_singleton.mp hin ▸ hc)

theorem SdParam.lf_not_mem (param : SdParam) : '\n' ∉ param.encode := by
  have hname : '\n' ∉ param.name :=
    fun h => ne_lf_of_isSpace (isSpace_of_isKeyChar (param.name_chars _ h)) rfl
  have hvalue := lf_not_mem_escape param.value_line
  simp [SdParam.encode, SdParam.assignment, quote, hname, hvalue]

theorem isSpace_of_isIdChar {c : Char} (h : isIdChar c = true) : isSpace c = false := by
  simp only [isIdChar, Bool.and_eq_true, Bool.not_eq_true'] at h
  exact h.1.1.1

theorem SdElement.lf_not_mem (e : SdElement) : '\n' ∉ e.encode := by
  have hid : '\n' ∉ e.id :=
    fun h => ne_lf_of_isSpace (isSpace_of_isIdChar (e.id_chars _ h)) rfl
  have hparams : '\n' ∉ e.params.flatMap SdParam.encode := by
    intro h
    obtain ⟨param, -, hin⟩ := List.mem_flatMap.mp h
    exact param.lf_not_mem hin
  simp only [SdElement.encode, List.mem_cons, List.mem_append, not_or]
  exact ⟨by decide, hid, hparams, by decide, by simp⟩

theorem lf_not_mem_encodeElements (elements : List SdElement) :
    '\n' ∉ encodeElements elements := by
  intro h
  obtain ⟨e, -, hin⟩ := List.mem_flatMap.mp h
  exact e.lf_not_mem hin

end SrxProbe.Collectors
