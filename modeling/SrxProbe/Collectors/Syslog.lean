import SrxProbe.Lib.Regex
import SrxProbe.Lib.Text
import SrxProbe.Validation.Correlator

/-!
# Parsing a structured syslog line

The patterns of the collector and the parser over them: an RFC5424 record with
its structured data, or a legacy line with its tag.
-/

namespace SrxProbe.Collectors

open SrxProbe.Lib SrxProbe.Lib.Regex SrxProbe.Validation

/-! ## Character classes of the patterns -/

/-- `[A-Za-z0-9_\-\.]`. -/
def isKeyChar (c : Char) : Bool :=
  inRange 'A' 'Z' c || inRange 'a' 'z' c || inRange '0' '9' c || c = '_' || c = '-' || c = '.'

/-- `[A-Z0-9]`. -/
def isTagChar (c : Char) : Bool := inRange 'A' 'Z' c || inRange '0' '9' c

/-- `\w`, of the ASCII characters: a pattern that asks for a word boundary takes
an ASCII character on one side of it and the end of the text on the other. -/
def isWord (c : Char) : Bool :=
  inRange 'A' 'Z' c || inRange 'a' 'z' c || inRange '0' '9' c || c = '_'

/-- `[^\s\]"=]`. -/
def isIdChar (c : Char) : Bool := !isSpace c && c ≠ ']' && c ≠ '"' && c ≠ '='

/-! ## Patterns -/

/-- `\b`. -/
def wordBoundary : Regex :=
  look fun before rest => (before.head?.any isWord) != (rest.head?.any isWord)

/-- `_KEY`. -/
def key : Regex := plus (cls isKeyChar)

/-- `_QUOTED`. -/
def quoted : Regex :=
  cat [chr '"', star (alt (cat [chr '\\', anyChar]) (cls fun c => c ≠ '"' && c ≠ '\\')), chr '"']

/-- `_SD_QUOTED`. -/
def sdQuoted : Regex :=
  cat [chr '"',
    star (alt (cat [chr '\\', anyChar]) (cls fun c => c ≠ '"' && c ≠ '\\' && c ≠ ']')), chr '"']

/-- `_KV_RE`. -/
def kvRe : Regex :=
  alt (cat [group 1 key, chr '=', group 2 quoted])
    (cat [group 3 key, chr '=', group 4 (plus (cls fun c => !isSpace c && c ≠ ']' && c ≠ '"'))])

/-- `_SD_RE`. -/
def sdRe : Regex :=
  cat [chr '[', plus (cls isIdChar), star (cat [spaces, key, chr '=', sdQuoted]), chr ']']

/-- `_HEADER_RE`; group 1 is `msgid`, group 2 is `body`. -/
def headerRe : Regex :=
  cat [chr '<', reps (cls isDecimal) 2 1, chr '>',
    cls (inRange '1' '9'), star (cls isDecimal), spaces,
    nonspaces, spaces, nonspaces, spaces, nonspaces, spaces, nonspaces, spaces,
    group 1 nonspaces, spaces, group 2 (star anyChar), lineEnd]

/-- `_TAG_RE`. -/
def tagRe : Regex :=
  cat [wordBoundary,
    group 1 (cat [cls (inRange 'A' 'Z'), plus (cls isTagChar),
      plus (cat [chr '_', plus (cls isTagChar)])]),
    wordBoundary]

/-- `_LEGACY_TAG_RE`. -/
def legacyTagRe : Regex :=
  cat [look fun before _ => before.head?.all isSpace,
    group 1 (cat
      [alt (cat [lit "RT_".toList, plus (cls isTagChar), chr '_'])
        (alt (lit "APPTRACK_".toList) (alt (lit "WEBFILTER_".toList) (lit "AV_".toList))),
      plus (cls fun c => isTagChar c || c = '_')]),
    look fun _ rest => rest = [] || rest = ['\n'] || rest.head?.any fun c => c = ':' || isSpace c]

/-- `^<\d+>\d+\s`. -/
def brokenHeaderRe : Regex := cat [chr '<', digits, chr '>', digits, cls isSpace]

/-- `\\(["\\\]])`. -/
def escapeRe : Regex := cat [chr '\\', group 1 (cls fun c => c = '"' || c = '\\' || c = ']')]

/-! ## Field names -/

def srcIpKeys : List PyStr :=
  ["source-address".toList, "src-ip".toList, "nat-source-address".toList]

def dstIpKeys : List PyStr :=
  ["destination-address".toList, "dst-ip".toList, "nat-destination-address".toList]

def srcPortKeys : List PyStr := ["source-port".toList, "src-port".toList]

def dstPortKeys : List PyStr := ["destination-port".toList, "dst-port".toList]

def protoKeys : List PyStr := ["protocol-id".toList, "protocol".toList, "ip-protocol".toList]

def protoNum : List (PyStr × PyStr) :=
  [("1".toList, "ICMP".toList), ("6".toList, "TCP".toList), ("17".toList, "UDP".toList),
   ("47".toList, "GRE".toList), ("50".toList, "ESP".toList)]

/-- `_first`: the first of `keys` with a nonempty value. -/
def first (fields : Dict PyStr PyStr) (keys : List PyStr) : Option PyStr :=
  keys.findSome? fun k => (fields.get? k).filter (!·.isEmpty)

/-- `_to_int`. -/
def toInt (val : Option PyStr) : Option Int := val.bind parseInt

/-! ## The parser -/

/-- The text of a quoted value with the three escapes undone. -/
def unescape (s : PyStr) : PyStr := escapeRe.sub (fun m => (m.group 1).getD []) s

/-- The assignment a match of `_KV_RE` stands for. -/
def keyValue (m : Match) : PyStr × PyStr :=
  match m.group 1 with
  | some k => (k, unescape (((m.group 2).getD []).drop 1).dropLast)
  | none => ((m.group 3).getD [], (m.group 4).getD [])

def fieldsOf (fieldText : PyStr) : Dict PyStr PyStr :=
  Dict.ofPairs ((kvRe.finditer fieldText).map keyValue)

/-- The 5-tuple, from the fields alone. -/
def fiveTupleOf (p : Platform) (fields : Dict PyStr PyStr) : FiveTuple where
  srcIp := first fields srcIpKeys
  dstIp := first fields dstIpKeys
  protocol := (first fields protoKeys).map fun raw => (protoNum.lookup raw).getD (p.upper raw)
  srcPort := toInt (first fields srcPortKeys)
  dstPort := toInt (first fields dstPortKeys)

/-- The loop over the SD elements of a body: the elements and what follows them,
or `none` at a malformed one. Every element takes a character, so the length of the
body is fuel enough. -/
def sdElements : Nat → List Char → List Char → Option (List PyStr × List Char)
  | n + 1, before, '[' :: rest =>
      match sdRe.matchAt before ('[' :: rest) with
      | none => none
      | some m => do
          let (chunks, tail) ← sdElements n (m.text.reverse ++ before) m.rest
          some (m.text :: chunks, tail)
  | _, _, rest => some ([], rest)

/-- `field_text` of an RFC5424 body. -/
def structuredText (body : PyStr) : Option PyStr :=
  if body = "-".toList || "- ".toList.isPrefixOf body then some []
  else do
    let (chunks, tail) ← sdElements body.length [] body
    if chunks.isEmpty || (!tail.isEmpty && tail.head? ≠ some ' ') then none
    else some ([' '].intercalate chunks)

/-- The event type and `field_text` of a legacy line. -/
def legacyText (line : PyStr) : Option (PyStr × PyStr) :=
  let preamble := (line.takeWhile (· ≠ '[')).takeWhile (· ≠ '=')
  match legacyTagRe.search preamble with
  | none => none
  | some tag => some ((tag.group 1).getD [], line.drop tag.stop)

/-- The event type and `field_text` of a stripped line. -/
def lineText (line : PyStr) : Option (PyStr × PyStr) :=
  match headerRe.matchAt [] line with
  | some header => do
      let eventType := (header.group 1).getD []
      let _ ← tagRe.fullmatch eventType
      let fieldText ← structuredText ((header.group 2).getD [])
      some (eventType, fieldText)
  | none =>
      -- a broken RFC5424 record is not reinterpreted as a legacy one
      if (brokenHeaderRe.matchAt [] line).isSome then none else legacyText line

/-- `parse_syslog_line`; `now` is the clock, read when no `recv_time` is given. -/
def parseSyslogLine (p : Platform) (now : Timestamp) (line : PyStr)
    (recvTime : Option Timestamp) : Option TelemetryEvent :=
  let recvTime := recvTime.getD now
  let line := strip line
  if line.isEmpty then none
  else do
    let (eventType, fieldText) ← lineText line
    let fields := fieldsOf fieldText
    some
      { eventType := eventType
        fiveTuple := fiveTupleOf p fields
        timestamp := recvTime
        fields := fields.mapValues .str
        raw := line }

/-- What an event takes from its line. -/
theorem exists_lineText {p : Platform} {now : Timestamp} {line : PyStr}
    {recvTime : Option Timestamp} {ev : TelemetryEvent}
    (h : parseSyslogLine p now line recvTime = some ev) :
    ∃ fieldText, lineText (strip line) = some (ev.eventType, fieldText) ∧
      ev.fields = (fieldsOf fieldText).mapValues .str ∧
      ev.fiveTuple = fiveTupleOf p (fieldsOf fieldText) := by
  unfold parseSyslogLine at h
  dsimp only at h
  split at h
  · cases h
  · obtain ⟨⟨eventType, fieldText⟩, htext, hev⟩ := Option.bind_eq_some_iff.mp h
    cases hev
    exact ⟨fieldText, htext, rfl, rfl⟩

end SrxProbe.Collectors
