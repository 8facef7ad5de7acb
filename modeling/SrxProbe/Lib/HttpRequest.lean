import SrxProbe.Lib.Http
import SrxProbe.Lib.IpAddress
import SrxProbe.Lib.Utf8

/-!
# Reading HTTP requests

How a server takes a request from what it receives: the request line, the header fields and
as many octets of body as the request says. A character stands for an octet.
-/

namespace SrxProbe.Lib.Http

/-- A text as the octets it is sent as. -/
def octets (s : PyStr) : PyStr := (encodeUtf8 s).map fun b => Char.ofNat b.toNat

structure Request where
  method : PyStr
  target : PyStr
  fields : Headers
  body : PyStr
  deriving DecidableEq, Repr

/-! ## Reading -/

/-- A character that ends neither a part of the request line nor a line. -/
def isVisible (c : Char) : Bool := 0x20 < c.toNat && c.toNat ≠ 0x7F

/-- A character of a field name. -/
def isNameChar (c : Char) : Bool := isAlnum c || c = '-'

/-- A character of a field value. -/
def isValueChar (c : Char) : Bool := isVisible c || c = ' ' || c = '\t'

def isBlank (c : Char) : Bool := c = ' ' || c = '\t'

/-- The first line, and what follows its line break. -/
def splitLine : PyStr → Option (PyStr × PyStr)
  | [] => none
  | c :: rest =>
      if c = '\r' ∧ rest.head? = some '\n' then some ([], rest.tail)
      else (splitLine rest).map fun split => (c :: split.1, split.2)

def readField (line : PyStr) : Option (PyStr × PyStr) :=
  let name := before ':' line
  let value := ((after ':' line).dropWhile isBlank).rdropWhile isBlank
  if ':' ∈ line ∧ name ≠ [] ∧ name.all isNameChar ∧ value.all isValueChar then some (name, value)
  else none

/-- The header fields, up to the empty line. Every line takes a character, so the length of the
text is fuel enough. -/
def readFields : Nat → PyStr → Option (Headers × PyStr)
  | 0, _ => none
  | n + 1, s => do
      let (line, rest) ← splitLine s
      if line = [] then return ([], rest)
      let field ← readField line
      let (fields, rest) ← readFields n rest
      return (field :: fields, rest)

/-- What the request says about the length of its body. -/
def bodyLength (fields : Headers) : Option Nat :=
  match get? fields "Content-Length" with
  | none => some 0
  | some text =>
      if text ≠ [] ∧ text.all IpAddress.isAsciiDigit then (parseInt text).map Int.toNat else none

/-- A request, and what follows it. -/
def readRequest (s : PyStr) : Option (Request × PyStr) := do
  let (line, rest) ← splitLine s
  match line.splitOn ' ' with
  | [method, target, version] =>
      if method ≠ [] ∧ target ≠ [] ∧ (method ++ target).all isVisible ∧
          version = "HTTP/1.1".toList then do
        let (fields, rest) ← readFields s.length rest
        let length ← bodyLength fields
        if rest.length < length then none
        else return (⟨method, target, fields, rest.take length⟩, rest.drop length)
      else none
  | _ => none

/-! ## Writing -/

def writeField (field : PyStr × PyStr) : PyStr := field.1 ++ ": ".toList ++ field.2 ++ "\r\n".toList

def Request.write (r : Request) : PyStr :=
  r.method ++ " ".toList ++ r.target ++ " HTTP/1.1\r\n".toList ++
    r.fields.flatMap writeField ++ "\r\n".toList ++ r.body

/-- A request that is read as it was written. -/
structure Request.WellFormed (r : Request) : Prop where
  method : r.method ≠ [] ∧ r.method.all isVisible
  target : r.target ≠ [] ∧ r.target.all isVisible
  fields : ∀ field ∈ r.fields, field.1 ≠ [] ∧ field.1.all isNameChar ∧ field.2.all isVisible
  body : bodyLength r.fields = some r.body.length

theorem splitLine_append {line : PyStr} (h : '\r' ∉ line) (rest : PyStr) :
    splitLine (line ++ '\r' :: '\n' :: rest) = some (line, rest) := by
  induction line with
  | nil => rfl
  | cons c line ih =>
      rw [List.mem_cons, not_or] at h
      show splitLine (c :: (line ++ _)) = _
      rw [splitLine, if_neg (fun hc => h.1 hc.1.symm), ih h.2]
      rfl

theorem cr_not_mem {p : Char → Bool} {s : PyStr} (hp : p '\r' = false) (h : s.all p = true) :
    '\r' ∉ s := by
  intro hmem
  have hcr := List.all_eq_true.mp h '\r' hmem
  rw [hp] at hcr
  cases hcr

theorem isVisible_of_isNameChar {c : Char} (h : isNameChar c = true) : isVisible c = true := by
  unfold isNameChar at h
  rw [Bool.or_eq_true, decide_eq_true_eq] at h
  rcases h with h | rfl
  · simp only [isAlnum, isAlpha, inRange, Bool.or_eq_true, Bool.and_eq_true,
      decide_eq_true_eq] at h
    have h0 : '0'.toNat = 0x30 := rfl
    have h9 : '9'.toNat = 0x39 := rfl
    have hA : 'A'.toNat = 0x41 := rfl
    have hZ : 'Z'.toNat = 0x5A := rfl
    have ha : 'a'.toNat = 0x61 := rfl
    have hz : 'z'.toNat = 0x7A := rfl
    unfold isVisible
    rw [Bool.and_eq_true, decide_eq_true_eq, decide_eq_true_eq]
    omega
  · decide

/-- A value without blanks is not trimmed. -/
theorem trim_visible {s : PyStr} (h : s.all isVisible = true) :
    ((' ' :: s).dropWhile isBlank).rdropWhile isBlank = s := by
  have hblank : ∀ c ∈ s, isBlank c = false := by
    intro c hc
    have hvisible := List.all_eq_true.mp h c hc
    rw [← Bool.not_eq_true]
    intro hblank
    unfold isBlank at hblank
    rw [Bool.or_eq_true, decide_eq_true_eq, decide_eq_true_eq] at hblank
    rcases hblank with rfl | rfl <;> cases hvisible
  have hdrop : (' ' :: s).dropWhile isBlank = s := by
    rw [List.dropWhile_cons_of_pos (by decide)]
    cases s with
    | nil => rfl
    | cons c s =>
        exact List.dropWhile_cons_of_neg (by simp [hblank c List.mem_cons_self])
  rw [hdrop]
  refine List.rdropWhile_eq_self_iff.mpr fun hne => ?_
  rw [hblank _ (List.getLast_mem hne)]
  exact Bool.false_ne_true

theorem readField_write {field : PyStr × PyStr} (hne : field.1 ≠ [])
    (hname : field.1.all isNameChar = true) (hvalue : field.2.all isVisible = true) :
    readField (field.1 ++ ": ".toList ++ field.2) = some field := by
  have hcolon : ':' ∉ field.1 := by
    intro hmem
    have hchar := List.all_eq_true.mp hname ':' hmem
    cases hchar
  have hline : field.1 ++ ": ".toList ++ field.2 = field.1 ++ ':' :: ' ' :: field.2 := by simp
  have hvalue' : field.2.all isValueChar = true := by
    refine List.all_eq_true.mpr fun c hc => ?_
    unfold isValueChar
    rw [List.all_eq_true.mp hvalue c hc]
    rfl
  unfold readField
  rw [hline, before_append hcolon, after_append hcolon]
  dsimp only
  rw [trim_visible hvalue, if_pos ⟨by simp, hne, hname, hvalue'⟩]

theorem readFields_write {fields : Headers} (h : ∀ field ∈ fields, field.1 ≠ [] ∧
      field.1.all isNameChar = true ∧ field.2.all isVisible = true) {n : Nat}
    (hn : fields.length < n) (rest : PyStr) :
    readFields n (fields.flatMap writeField ++ '\r' :: '\n' :: rest) = some (fields, rest) := by
  induction fields generalizing n with
  | nil =>
      obtain ⟨n, rfl⟩ : ∃ m, n = m + 1 := ⟨n - 1, by omega⟩
      rfl
  | cons field fields ih =>
      obtain ⟨n, rfl⟩ : ∃ m, n = m + 1 := ⟨n - 1, by omega⟩
      obtain ⟨hne, hname, hvalue⟩ := h field List.mem_cons_self
      have hrest := ih (fun f hf => h f (List.mem_cons_of_mem field hf))
        (by simpa using hn : fields.length < n)
      have hcr : '\r' ∉ field.1 ++ ": ".toList ++ field.2 := by
        have hname' := cr_not_mem (by decide) hname
        have hvalue' := cr_not_mem (by decide) hvalue
        simp [hname', hvalue']
      have htext : (field :: fields).flatMap writeField ++ '\r' :: '\n' :: rest =
          (field.1 ++ ": ".toList ++ field.2) ++
            '\r' :: '\n' :: (fields.flatMap writeField ++ '\r' :: '\n' :: rest) := by
        simp [writeField]
      rw [htext]
      unfold readFields
      rw [splitLine_append hcr, Option.bind_eq_bind, Option.bind_some]
      dsimp only
      rw [if_neg (by simp), readField_write hne hname hvalue, hrest]
      rfl

/-- **A request is read as it was written**, and nothing is left. -/
theorem readRequest_write {r : Request} (h : r.WellFormed) :
    readRequest r.write = some (r, []) := by
  have hline : '\r' ∉ r.method ++ " ".toList ++ r.target ++ " HTTP/1.1".toList := by
    have hmethod := cr_not_mem (by decide) h.method.2
    have htarget := cr_not_mem (by decide) h.target.2
    simp [hmethod, htarget]
  have hspace : ∀ s : PyStr, s.all isVisible = true → ' ' ∉ s := by
    intro s hs hmem
    have hchar := List.all_eq_true.mp hs ' ' hmem
    cases hchar
  have hparts : (r.method ++ " ".toList ++ r.target ++ " HTTP/1.1".toList).splitOn ' ' =
      [r.method, r.target, "HTTP/1.1".toList] := by
    have hintercalate : r.method ++ " ".toList ++ r.target ++ " HTTP/1.1".toList =
        [' '].intercalate [r.method, r.target, "HTTP/1.1".toList] := by
      simp [List.intercalate]
    rw [hintercalate]
    refine List.splitOn_intercalate ' ' ?_ (List.cons_ne_nil _ _)
    intro part hpart
    simp only [List.mem_cons, List.not_mem_nil, or_false] at hpart
    rcases hpart with rfl | rfl | rfl
    · exact hspace _ h.method.2
    · exact hspace _ h.target.2
    · decide
  have htext : r.write = (r.method ++ " ".toList ++ r.target ++ " HTTP/1.1".toList) ++
      '\r' :: '\n' :: (r.fields.flatMap writeField ++ '\r' :: '\n' :: r.body) := by
    simp [Request.write]
  have hlength : r.fields.length < r.write.length := by
    have hfields : r.fields.length ≤ (r.fields.flatMap writeField).length := by
      generalize r.fields = fields
      induction fields with
      | nil => exact Nat.le_refl _
      | cons field fields ih =>
          have hfield : 0 < (writeField field).length := by
            unfold writeField
            rw [List.length_append]
            exact Nat.add_pos_right _ (by decide)
          rw [List.flatMap_cons, List.length_append, List.length_cons]
          omega
    rw [htext]
    simp only [List.length_append, List.length_cons] at hfields ⊢
    omega
  have hfields := readFields_write h.fields hlength r.body
  have hvisible : (r.method ++ r.target).all isVisible = true := by
    rw [List.all_append, h.method.2, h.target.2]
    rfl
  have hsplit : splitLine r.write = some (r.method ++ " ".toList ++ r.target ++
      " HTTP/1.1".toList, r.fields.flatMap writeField ++ '\r' :: '\n' :: r.body) := by
    rw [htext]
    exact splitLine_append hline _
  unfold readRequest
  rw [hsplit, Option.bind_eq_bind, Option.bind_some]
  dsimp only
  rw [hparts]
  dsimp only
  rw [if_pos ⟨h.method.1, h.target.1, hvisible, rfl⟩, hfields, Option.bind_eq_bind,
    Option.bind_some]
  dsimp only
  rw [h.body, Option.bind_eq_bind, Option.bind_some, if_neg (Nat.lt_irrefl _), List.take_length,
    List.drop_length]
  rfl

/-- The target of a request that is read is what its first line says, and visible. -/
theorem visible_of_readRequest {s rest : PyStr} {r : Request}
    (h : readRequest s = some (r, rest)) : r.target ≠ [] ∧ r.target.all isVisible = true := by
  unfold readRequest at h
  obtain ⟨⟨line, behind⟩, -, h⟩ := Option.bind_eq_some_iff.mp h
  dsimp only at h
  split at h
  · split at h
    · rename_i hline
      obtain ⟨⟨fields, behind⟩, -, h⟩ := Option.bind_eq_some_iff.mp h
      obtain ⟨length, -, h⟩ := Option.bind_eq_some_iff.mp h
      split at h
      · cases h
      · cases h
        rw [List.all_append, Bool.and_eq_true] at hline
        exact ⟨hline.2.1, hline.2.2.1.2⟩
    · cases h
  · cases h

/-! ## Octets -/

@[simp] theorem octets_append (s t : PyStr) : octets (s ++ t) = octets s ++ octets t := by
  unfold octets encodeUtf8
  rw [List.flatMap_append, List.map_append]

theorem octets_cons (c : Char) (s : PyStr) : octets (c :: s) = octets [c] ++ octets s :=
  octets_append [c] s

theorem octets_ascii_char {c : Char} (h : c.toNat < 0x80) : octets [c] = [c] := by
  have hsize : c.val.toNat ≤ 0x7F := Nat.lt_succ_iff.mp h
  have hencode : encodeUtf8 [c] = [UInt8.ofNat c.toNat] := by
    unfold encodeUtf8
    rw [List.flatMap_singleton]
    unfold String.utf8EncodeChar
    exact if_pos hsize
  unfold octets
  rw [hencode, List.map_singleton, Utf8.toNat_ofNat_of_lt (by omega), Char.ofNat_toNat]

/-- ASCII is sent as it is. -/
theorem octets_ascii {s : PyStr} (h : ∀ c ∈ s, c.toNat < 0x80) : octets s = s := by
  induction s with
  | nil => rfl
  | cons c s ih =>
      rw [octets_cons, octets_ascii_char (h c List.mem_cons_self),
        ih fun d hd => h d (List.mem_cons_of_mem c hd)]
      rfl

/-- An octet of a character beyond ASCII is beyond ASCII. -/
theorem high_of_mem_octets {c d : Char} (h : ¬ c.toNat < 0x80) (hd : d ∈ octets [c]) :
    0x80 ≤ d.toNat := by
  obtain ⟨b, hb, rfl⟩ := List.mem_map.mp hd
  by_contra hlow
  have hvalid : (Char.ofNat b.toNat).toNat = b.toNat := by
    have hvalid : b.toNat.isValidChar := .inl (by have hlt := b.toNat_lt; omega)
    unfold Char.ofNat
    rw [dif_pos hvalid]
    rfl
  rw [hvalid] at hlow
  have hmem := mem_of_mem_encodeUtf8 (by omega) hb
  rw [List.mem_singleton] at hmem
  rw [← hmem, hvalid] at h
  omega

theorem all_isVisible_octets (s : PyStr) : (octets s).all isVisible = s.all isVisible := by
  induction s with
  | nil => rfl
  | cons c s ih =>
      rw [octets_cons, List.all_append, ih, List.all_cons]
      congr 1
      by_cases hc : c.toNat < 0x80
      · rw [octets_ascii_char hc, List.all_cons, List.all_nil, Bool.and_true]
      · have hvisible : ∀ d : Char, 0x80 ≤ d.toNat → isVisible d = true := by
          intro d hd
          unfold isVisible
          rw [Bool.and_eq_true, decide_eq_true_eq, decide_eq_true_eq]
          omega
        rw [hvisible c (by omega)]
        exact List.all_eq_true.mpr fun d hd => hvisible d (high_of_mem_octets hc hd)

theorem octets_ne_nil {s : PyStr} (h : s ≠ []) : octets s ≠ [] := by
  intro hnil
  have hdecode := decodeUtf8_encodeUtf8 s
  rw [List.map_eq_nil_iff.mp hnil] at hdecode
  exact h hdecode.symm

end SrxProbe.Lib.Http
