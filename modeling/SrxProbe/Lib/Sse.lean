import SrxProbe.Lib.Lines
import SrxProbe.Lib.Utf8

/-!
# Server-sent events

How a client reads an event stream. The bytes are decoded and cut into lines at each of
the three line endings; a line sets a field of the event under way, or is a comment, or
is blank and dispatches the event. A line that has not ended yet is not read.
-/

namespace SrxProbe.Lib

/-- The lines of a text that have ended; `line` is what has been read of the first. -/
def cutLines : PyStr → List Char → List PyStr
  | _, [] => []
  | line, c :: rest =>
      if c = '\n' then line :: cutLines [] rest else cutLines (line ++ [c]) rest

/-- The ended lines of a stream, under any of the three line endings. -/
def endedLines (text : List Char) : List PyStr := cutLines [] (universalNewlines text)

/-- Each line with a line feed behind it. -/
def unlines (lines : List PyStr) : PyStr := lines.flatMap (· ++ ['\n'])

@[simp] theorem unlines_nil : unlines [] = [] := rfl

@[simp] theorem unlines_cons (line : PyStr) (lines : List PyStr) :
    unlines (line :: lines) = line ++ '\n' :: unlines lines := by
  simp [unlines]

@[simp] theorem unlines_append (lines more : List PyStr) :
    unlines (lines ++ more) = unlines lines ++ unlines more := List.flatMap_append

theorem cutLines_line {line : PyStr} (h : ∀ c ∈ line, isNewline c = false)
    (read : PyStr) (rest : List Char) :
    cutLines read (line ++ '\n' :: rest) = (read ++ line) :: cutLines [] rest := by
  induction line generalizing read with
  | nil => simp [cutLines]
  | cons c line ih =>
      have hc : c ≠ '\n' := by
        rintro rfl
        cases h '\n' List.mem_cons_self
      rw [List.cons_append, cutLines, if_neg hc, ih fun d hd => h d (List.mem_cons_of_mem c hd)]
      simp

theorem endedLines_line {line : PyStr} (h : ∀ c ∈ line, isNewline c = false)
    (rest : List Char) : endedLines (line ++ '\n' :: rest) = line :: endedLines rest := by
  unfold endedLines
  rw [universalNewlines_line h, universalNewlines_cons (by decide), cutLines_line h,
    List.nil_append]

/-- Lines written one behind the other are read back. -/
theorem endedLines_unlines {lines : List PyStr}
    (h : ∀ line ∈ lines, ∀ c ∈ line, isNewline c = false) :
    endedLines (unlines lines) = lines := by
  induction lines with
  | nil => rfl
  | cons line lines ih =>
      rw [unlines_cons, endedLines_line (h line List.mem_cons_self),
        ih fun l hl => h l (List.mem_cons_of_mem line hl)]

theorem prefix_cutLines (read text rest : List Char) :
    cutLines read text <+: cutLines read (text ++ rest) := by
  induction text generalizing read with
  | nil => exact List.nil_prefix
  | cons c text ih =>
      rw [List.cons_append, cutLines, cutLines]
      split
      · exact (List.prefix_cons_inj read).mpr (ih [])
      · exact ih (read ++ [c])

theorem cutLines_concat {c : Char} (h : c ≠ '\n') (read text : List Char) :
    cutLines read (text ++ [c]) = cutLines read text := by
  induction text generalizing read with
  | nil => exact if_neg h
  | cons d text ih =>
      rw [List.cons_append, cutLines, cutLines]
      split
      · rw [ih]
      · exact ih (read ++ [d])

/-- What comes later does not change the lines that have ended. -/
theorem prefix_endedLines {text whole : List Char} (h : text <+: whole) :
    endedLines text <+: endedLines whole := by
  obtain ⟨rest, rfl⟩ := h
  obtain ⟨more, hmore⟩ := prefix_universalNewlines text rest
  unfold endedLines
  rw [← hmore]
  exact prefix_cutLines [] _ more

theorem endedLines_concat {c : Char} (h : isNewline c = false) (text : List Char) :
    endedLines (text ++ [c]) = endedLines text := by
  have hn : c ≠ '\n' := by rintro rfl; cases h
  unfold endedLines
  rw [universalNewlines_concat h, cutLines_concat hn]

namespace Sse

/-- An event as the client dispatches it. `id` is the last event id at that time. -/
structure Message where
  id : PyStr
  event : PyStr
  data : PyStr
  deriving DecidableEq, Repr

/-- The buffers of a reader. `data` has a line feed behind each of its lines; `retry`
is the reconnection time, in milliseconds, once the stream has set it. -/
structure Reader where
  id : PyStr
  event : PyStr
  data : PyStr
  retry : Option Nat
  deriving DecidableEq, Repr

/-- A value without the one space that may stand in front of it. -/
def fieldValue : PyStr → PyStr
  | ' ' :: value => value
  | value => value

namespace Reader

/-- At the beginning of a stream. -/
def fresh : Reader := ⟨[], [], [], none⟩

def field (r : Reader) (name value : PyStr) : Reader :=
  if name = "event".toList then { r with event := value }
  else if name = "data".toList then { r with data := r.data ++ value ++ ['\n'] }
  else if name = "id".toList then
    if Char.ofNat 0 ∈ value then r else { r with id := value }
  else if name = "retry".toList then
    match value.mapM fun c => if '0' ≤ c ∧ c ≤ '9' then some (c.toNat - 0x30) else none with
    | some digits => { r with retry := some (digits.foldl (fun n d => 10 * n + d) 0) }
    | none => r
  else r

/-- A blank line. An event without data is dropped; the id stays for the next ones. -/
def dispatch (r : Reader) : Reader × List Message :=
  let event := if r.event = [] then "message".toList else r.event
  ({ r with event := [], data := [] },
    if r.data = [] then [] else [⟨r.id, event, r.data.dropLast⟩])

def line (r : Reader) : PyStr → Reader × List Message
  | [] => r.dispatch
  | ':' :: _ => (r, [])
  | text =>
      let name := text.takeWhile (· ≠ ':')
      (r.field name (fieldValue (text.drop (name.length + 1))), [])

def lines : Reader → List PyStr → Reader × List Message
  | r, [] => (r, [])
  | r, text :: rest =>
      let (r', here) := r.line text
      let (r'', later) := r'.lines rest
      (r'', here ++ later)

end Reader

/-- A byte order mark at the beginning is not part of the text. -/
def dropMark : List Char → List Char
  | c :: rest => if c = Char.ofNat 0xFEFF then rest else c :: rest
  | [] => []

/-- What a client makes of the bytes of a stream. -/
def read (stream : Bytes) : Reader × List Message :=
  Reader.fresh.lines (endedLines (dropMark (decodeUtf8 stream)))

/-- The events dispatched. -/
def messages (stream : Bytes) : List Message := (read stream).2

/-! ## Reading what was written by lines -/

/-- Between two events: no field of the next one has been read. -/
structure Reader.AtRest (r : Reader) : Prop where
  event : r.event = []
  data : r.data = []

namespace Reader

theorem atRest_fresh : fresh.AtRest := ⟨rfl, rfl⟩

/-- Lines are read one after the other. -/
theorem lines_append (r : Reader) (texts more : List PyStr) :
    r.lines (texts ++ more) =
      (((r.lines texts).1.lines more).1,
        (r.lines texts).2 ++ ((r.lines texts).1.lines more).2) := by
  induction texts generalizing r with
  | nil => rfl
  | cons text texts ih => simp [lines, ih]

/-- A line `name: value` sets a field. -/
theorem line_field (r : Reader) {name : PyStr} (hname : name ≠ []) (hcolon : ':' ∉ name)
    (value : PyStr) : r.line (name ++ ':' :: ' ' :: value) = (r.field name value, []) := by
  cases name with
  | nil => exact absurd rfl hname
  | cons c name =>
      have hc : c ≠ ':' := fun h => hcolon (h ▸ List.mem_cons_self)
      have hsolid : ∀ d ∈ c :: name, decide (d ≠ ':') = true :=
        fun d hd => decide_eq_true fun h => hcolon (h ▸ hd)
      have htake : (c :: name ++ ':' :: ' ' :: value).takeWhile (· ≠ ':') = c :: name := by
        rw [List.takeWhile_append_of_pos hsolid, List.takeWhile_cons_of_neg (by simp),
          List.append_nil]
      have hdrop : (c :: name ++ ':' :: ' ' :: value).drop ((c :: name).length + 1) =
          ' ' :: value := by
        rw [List.drop_append]
        simp
      rw [List.cons_append] at htake hdrop ⊢
      rw [line]
      · rw [htake, hdrop]
        rfl
      · intro h
        cases h
      · intro rest h
        exact hc (List.cons.inj h).1

/-- The lines of one event, to a reader at rest. -/
theorem lines_event {r : Reader} (hrest : r.AtRest) {id event : PyStr}
    (hid : Char.ofNat 0 ∉ id) (hevent : event ≠ []) (data : PyStr) :
    r.lines ["id: ".toList ++ id, "event: ".toList ++ event, "data: ".toList ++ data, []] =
      ({ r with id := id }, [⟨id, event, data⟩]) := by
  obtain ⟨id₀, event₀, data₀, retry⟩ := r
  obtain rfl : event₀ = [] := hrest.event
  obtain rfl : data₀ = [] := hrest.data
  have h₁ : (⟨id₀, [], [], retry⟩ : Reader).line ("id: ".toList ++ id) =
      (⟨id, [], [], retry⟩, []) := by
    show line _ ("id".toList ++ ':' :: ' ' :: id) = _
    rw [line_field _ (by decide) (by decide)]
    simp [field, hid]
  have h₂ : (⟨id, [], [], retry⟩ : Reader).line ("event: ".toList ++ event) =
      (⟨id, event, [], retry⟩, []) := by
    show line _ ("event".toList ++ ':' :: ' ' :: event) = _
    rw [line_field _ (by decide) (by decide)]
    simp [field]
  have h₃ : (⟨id, event, [], retry⟩ : Reader).line ("data: ".toList ++ data) =
      (⟨id, event, data ++ ['\n'], retry⟩, []) := by
    show line _ ("data".toList ++ ':' :: ' ' :: data) = _
    rw [line_field _ (by decide) (by decide)]
    simp [field]
  have h₄ : (⟨id, event, data ++ ['\n'], retry⟩ : Reader).line [] =
      (⟨id, [], [], retry⟩, [⟨id, event, data⟩]) := by
    simp [line, dispatch, hevent]
  simp only [lines, h₁, h₂, h₃, h₄, List.nil_append]
  rfl

/-- A comment and a blank line, to a reader at rest. -/
theorem lines_comment {r : Reader} (hrest : r.AtRest) (text : PyStr) :
    r.lines [':' :: text, []] = (r, []) := by
  obtain ⟨id, event, data, retry⟩ := r
  obtain rfl : event = [] := hrest.event
  obtain rfl : data = [] := hrest.data
  simp [lines, line, dispatch]

/-- A field that is no part of an event, and a blank line. -/
theorem AtRest.lines_retry {r : Reader} (hrest : r.AtRest) {value : PyStr} {retry : Nat}
    (h : r.field "retry".toList value = { r with retry := some retry }) :
    r.lines ["retry: ".toList ++ value, []] = ({ r with retry := some retry }, []) := by
  have hline : r.line ("retry: ".toList ++ value) = ({ r with retry := some retry }, []) := by
    show line _ ("retry".toList ++ ':' :: ' ' :: value) = _
    rw [line_field _ (by decide) (by decide), h]
  obtain ⟨id, event, data, retry₀⟩ := r
  obtain rfl : event = [] := hrest.event
  obtain rfl : data = [] := hrest.data
  simp only [lines, hline]
  simp [line, dispatch]

end Reader

/-- **A stream written by lines** is read by the same lines. -/
theorem read_unlines {lines : List PyStr} (h : ∀ line ∈ lines, ∀ c ∈ line, isNewline c = false)
    (hmark : (unlines lines).head? ≠ some (Char.ofNat 0xFEFF)) :
    read (encodeUtf8 (unlines lines)) = Reader.fresh.lines lines := by
  have hdrop : dropMark (unlines lines) = unlines lines := by
    cases htext : unlines lines with
    | nil => rfl
    | cons c rest =>
        rw [htext, List.head?_cons] at hmark
        exact if_neg fun hc => hmark (congrArg some hc)
  unfold read
  rw [decodeUtf8_encodeUtf8, hdrop, endedLines_unlines h]

/-! ## A stream that is cut off -/

theorem prefix_dropMark {text whole : List Char} (h : text <+: whole) :
    dropMark text <+: dropMark whole := by
  obtain ⟨rest, rfl⟩ := h
  cases text with
  | nil => exact List.nil_prefix
  | cons c text =>
      rw [List.cons_append, dropMark, dropMark]
      split
      · exact List.prefix_append text rest
      · exact (List.prefix_cons_inj c).mpr (List.prefix_append text rest)

theorem dropMark_concat {c : Char} (h : c ≠ Char.ofNat 0xFEFF) (text : List Char) :
    dropMark (text ++ [c]) = dropMark text ++ [c] := by
  cases text with
  | nil => exact if_neg h
  | cons d text =>
      rw [List.cons_append, dropMark, dropMark]
      split
      · rfl
      · rfl

theorem Reader.prefix_lines (r : Reader) {texts whole : List PyStr} (h : texts <+: whole) :
    (r.lines texts).2 <+: (r.lines whole).2 := by
  obtain ⟨more, rfl⟩ := h
  rw [lines_append]
  exact List.prefix_append _ _

/-- **A stream that is cut off** has dispatched the first events of the whole one: no event
is read from a part of its bytes. -/
theorem prefix_messages {stream whole : Bytes} (h : stream <+: whole) :
    messages stream <+: messages whole := by
  obtain ⟨rest, rfl⟩ := h
  obtain ⟨text, tail, hdecode, htail, hprefix⟩ := Utf8.prefix_decodeFrom none stream rest
  have hlines : endedLines (dropMark (decodeUtf8 stream)) = endedLines (dropMark text) := by
    unfold decodeUtf8
    rw [hdecode]
    rcases htail with rfl | rfl
    · rw [List.append_nil]
    · rw [dropMark_concat (by decide), endedLines_concat (by decide)]
  unfold messages read
  rw [hlines]
  exact Reader.fresh.prefix_lines (prefix_endedLines (prefix_dropMark hprefix))

end Sse

end SrxProbe.Lib
