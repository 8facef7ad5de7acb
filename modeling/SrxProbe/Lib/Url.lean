import Mathlib.Data.List.SplitBy
import SrxProbe.Lib.IpAddress
import SrxProbe.Lib.Utf8

/-!
# URLs

Splitting a URL into its parts, reading the host and the port from its network
location, and undoing percent escapes. An HTTP URL that is put together from a host
and a path splits into them again.
-/

namespace SrxProbe.Lib

/-! ## Partition -/

section Partition

variable {sep : Char} {a b : PyStr}

/-- `s.partition(sep)[0]`. -/
def before (sep : Char) (s : PyStr) : PyStr := s.takeWhile (· ≠ sep)

/-- `s.partition(sep)[2]`. -/
def after (sep : Char) (s : PyStr) : PyStr := (s.dropWhile (· ≠ sep)).tail

theorem before_append (h : sep ∉ a) : before sep (a ++ sep :: b) = a := by
  have ha : ∀ c ∈ a, decide (c ≠ sep) = true := by
    intro c hc
    rw [decide_eq_true_eq]
    rintro rfl
    exact h hc
  unfold before
  rw [List.takeWhile_append_of_pos ha, List.takeWhile_cons_of_neg (by simp), List.append_nil]

theorem after_append (h : sep ∉ a) : after sep (a ++ sep :: b) = b := by
  have ha : ∀ c ∈ a, decide (c ≠ sep) = true := by
    intro c hc
    rw [decide_eq_true_eq]
    rintro rfl
    exact h hc
  unfold after
  rw [List.dropWhile_append_of_pos ha, List.dropWhile_cons_of_neg (by simp), List.tail_cons]

theorem after_cons (sep : Char) (s : PyStr) : after sep (sep :: s) = s :=
  after_append (List.not_mem_nil : sep ∉ [])

theorem before_of_notMem (h : sep ∉ a) : before sep a = a := by
  unfold before
  rw [List.takeWhile_eq_self_iff]
  intro c hc
  rw [decide_eq_true_eq]
  rintro rfl
  exact h hc

theorem after_of_notMem (h : sep ∉ a) : after sep a = [] := by
  unfold after
  rw [List.dropWhile_eq_nil_iff.mpr, List.tail_nil]
  intro c hc
  rw [decide_eq_true_eq]
  rintro rfl
  exact h hc

/-- A text is what stands before a separator, the separator, and what stands after. -/
theorem before_after (h : sep ∈ a) : a = before sep a ++ sep :: after sep a := by
  obtain ⟨x, y, rfl, hx⟩ := List.eq_append_cons_of_mem h
  rw [before_append hx, after_append hx]

end Partition

/-! ## Percent escapes -/

/-- `unquote_to_bytes`, of the bytes of the text. -/
def unquoteBytes : Bytes → Bytes
  | b :: hi :: lo :: rest =>
      if b = 0x25 then
        match IpAddress.hexValue (Char.ofNat hi.toNat), IpAddress.hexValue (Char.ofNat lo.toNat) with
        | some h, some l => UInt8.ofNat (16 * h + l) :: unquoteBytes rest
        | _, _ => b :: unquoteBytes (hi :: lo :: rest)
      else b :: unquoteBytes (hi :: lo :: rest)
  | b :: rest => b :: unquoteBytes rest
  | [] => []

def isAscii (c : Char) : Bool := c.toNat < 128

/-- `unquote(s)`: the escapes of each run of ASCII characters are decoded together. -/
def unquote (s : PyStr) : PyStr :=
  (s.splitBy fun c d => isAscii c == isAscii d).flatMap fun run =>
    if run.all isAscii then decodeUtf8 (unquoteBytes (encodeUtf8 run)) else run

theorem unquote_ascii {s : PyStr} (h : ∀ c ∈ s, isAscii c = true) :
    unquote s = decodeUtf8 (unquoteBytes (encodeUtf8 s)) := by
  by_cases hs : s = []
  · subst hs
    rfl
  · have hchain : s.IsChain (fun c d => (isAscii c == isAscii d) = true) := by
      refine List.Pairwise.isChain (List.pairwise_of_forall_mem_list ?_)
      intro c hc d hd
      rw [h c hc, h d hd]
      rfl
    unfold unquote
    rw [List.splitBy_of_isChain hs hchain, List.flatMap_cons, List.flatMap_nil, List.append_nil,
      if_pos (List.all_eq_true.mpr h)]

/-- A character that no escape contains stays at the end. -/
theorem unquoteBytes_append {b : UInt8} (h : IpAddress.hexValue (Char.ofNat b.toNat) = none)
    (bs : Bytes) : unquoteBytes (bs ++ [b]) = unquoteBytes bs ++ [b] := by
  fun_induction unquoteBytes bs with
  | case1 hi lo rest x y hx hy ih => simp [unquoteBytes, hx, hy, ih]
  | case2 hi lo rest hno ih =>
      simp only [List.cons_append, unquoteBytes, if_true]
      exact congrArg _ ih
  | case3 c hi lo rest hc ih =>
      simp only [List.cons_append, unquoteBytes, if_neg hc]
      exact congrArg _ ih
  | case4 c rest hshort ih =>
      cases rest with
      | nil => rfl
      | cons d rest =>
          cases rest with
          | cons e rest => exact (hshort d e rest rfl).elim
          | nil => simp [unquoteBytes, h]
  | case5 => rfl

/-- A trailing character that no escape contains is left as it is. -/
theorem unquote_append {s : PyStr} (h : ∀ c ∈ s, isAscii c = true) {c : Char}
    (hc : isAscii c = true) (hhex : IpAddress.hexValue c = none) :
    unquote (s ++ [c]) = unquote s ++ [c] := by
  have hlt : c.toNat < 0x80 := of_decide_eq_true hc
  have hbyte : (UInt8.ofNat c.toNat).toNat = c.toNat := Utf8.toNat_ofNat_of_lt (by omega)
  have hchar : Char.ofNat (UInt8.ofNat c.toNat).toNat = c := by rw [hbyte, Char.ofNat_toNat]
  have hencode : encodeUtf8 (s ++ [c]) = encodeUtf8 s ++ [UInt8.ofNat c.toNat] := by
    unfold encodeUtf8
    rw [List.flatMap_append, List.flatMap_cons, List.flatMap_nil, List.append_nil]
    congr 1
    unfold String.utf8EncodeChar
    rw [show c.val.toNat = c.toNat from rfl]
    dsimp only
    rw [if_pos (by omega)]
  have hascii : ∀ d ∈ s ++ [c], isAscii d = true := by
    intro d hd
    rcases List.mem_append.mp hd with hd | hd
    · exact h d hd
    · rw [List.mem_singleton.mp hd]
      exact hc
  rw [unquote_ascii hascii, unquote_ascii h, hencode, unquoteBytes_append (by rw [hchar, hhex]),
    decodeUtf8_append_ascii (by rw [hbyte]; exact hlt), hchar]
  rfl

/-! ## Splitting -/

/-- The parts of a URL. -/
structure SplitResult where
  scheme : PyStr
  netloc : PyStr
  path : PyStr
  query : PyStr
  fragment : PyStr
  deriving DecidableEq, Repr

/-- `s.lower()`, of an ASCII text. -/
def lower (s : PyStr) : PyStr :=
  s.map fun c => if inRange 'A' 'Z' c then Char.ofNat (c.toNat + 32) else c

def isAlpha (c : Char) : Bool := inRange 'A' 'Z' c || inRange 'a' 'z' c

def isAlnum (c : Char) : Bool := isAlpha c || inRange '0' '9' c

/-- `scheme_chars`. -/
def isSchemeChar (c : Char) : Bool := isAlnum c || c = '+' || c = '-' || c = '.'

/-- The characters that end a network location. -/
def isDelimiter (c : Char) : Bool := c = '/' || c = '?' || c = '#'

/-- The text after the brackets of `v1.host`. -/
def isFutureHost (host : PyStr) : Bool :=
  let version := host.takeWhile fun c => (IpAddress.hexValue c).isSome
  match host.dropWhile fun c => (IpAddress.hexValue c).isSome with
  | '.' :: rest => !version.isEmpty && !rest.isEmpty && '\n' ∉ rest
  | _ => false

/-- `_check_bracketed_host`. -/
def checkBracketedHost (host : PyStr) : Bool :=
  match host with
  | 'v' :: rest => isFutureHost rest
  | _ => (ipAddress host).any IpAddress.isV6

/-- The brackets of a network location enclose an IPv6 address, if there are any. -/
def checkBrackets (netloc : PyStr) : Bool :=
  if '[' ∈ netloc ∧ ']' ∈ netloc then checkBracketedHost (before ']' (after '[' netloc))
  else '[' ∉ netloc && ']' ∉ netloc

/-- The scheme of a URL and what follows it. -/
def splitScheme (url : PyStr) : PyStr × PyStr :=
  let scheme := before ':' url
  if ':' ∈ url ∧ scheme.head?.any isAlpha = true ∧ scheme.all isSchemeChar = true then
    (lower scheme, after ':' url)
  else ([], url)

/-- The network location of a URL without its scheme, and what follows it. -/
def splitNetloc (url : PyStr) : PyStr × PyStr :=
  match url with
  | '/' :: '/' :: rest => (rest.takeWhile (!isDelimiter ·), rest.dropWhile (!isDelimiter ·))
  | _ => ([], url)

/-- `urlsplit(url)`, `none` where it raises `ValueError`. `nfkcSafe` is what `_checknetloc` makes
of a network location outside ASCII. -/
def urlsplitWith (nfkcSafe : PyStr → Bool) (url : PyStr) : Option SplitResult :=
  let url := url.dropWhile (·.toNat ≤ 32)
  let url := url.filter fun c => c ≠ '\t' && c ≠ '\r' && c ≠ '\n'
  let (scheme, url) := splitScheme url
  let (netloc, rest) := splitNetloc url
  if checkBrackets netloc && (netloc.all isAscii || nfkcSafe netloc) then
    let fragment := after '#' rest
    let rest := before '#' rest
    some ⟨scheme, netloc, before '?' rest, after '?' rest, fragment⟩
  else none

/-- `urlsplit(url)`, where network locations are in ASCII: `_checknetloc` refuses only some of the
others, and none of those is read here. -/
def urlsplit : PyStr → Option SplitResult := urlsplitWith fun _ => false

namespace SplitResult

/-- The network location after the last `@`. -/
def hostinfo (u : SplitResult) : PyStr := u.netloc.rtakeWhile (· ≠ '@')

/-- `u.username`. -/
def username (u : SplitResult) : Option PyStr :=
  if '@' ∈ u.netloc then some (before ':' (u.netloc.rdropWhile (· ≠ '@')).dropLast) else none

/-- `u.password`. -/
def password (u : SplitResult) : Option PyStr :=
  let userinfo := (u.netloc.rdropWhile (· ≠ '@')).dropLast
  if '@' ∈ u.netloc ∧ ':' ∈ userinfo then some (after ':' userinfo) else none

/-- Host and port of `_hostinfo`, a missing port empty. -/
def hostPort (u : SplitResult) : PyStr × PyStr :=
  if '[' ∈ u.hostinfo then
    let bracketed := after '[' u.hostinfo
    (before ']' bracketed, after ':' (after ']' bracketed))
  else (before ':' u.hostinfo, after ':' u.hostinfo)

/-- `u.hostname`, empty where it is `None`. The zone of an address keeps its case. -/
def hostname (u : SplitResult) : PyStr :=
  let host := u.hostPort.1
  lower (host.takeWhile (· ≠ '%')) ++ host.dropWhile (· ≠ '%')

/-- `u.port`, `none` where reading it raises `ValueError`. -/
def port (u : SplitResult) : Option (Option Int) :=
  match u.hostPort.2 with
  | [] => some none
  | port =>
      if port.all IpAddress.isAsciiDigit then
        match parseInt port with
        | some n => if n ≤ 65535 then some (some n) else none
        | none => none
      else none

end SplitResult

/-! ## URLs put together from a host and a path -/

def httpSchemes : List PyStr := ["http".toList, "https".toList]

/-- A network location that splitting finds again. -/
structure IsNetloc (netloc : PyStr) : Prop where
  printable : ∀ c ∈ netloc, 32 < c.toNat
  ascii : ∀ c ∈ netloc, isAscii c = true
  undelimited : ∀ c ∈ netloc, isDelimiter c = false
  noUser : '@' ∉ netloc
  brackets : checkBrackets netloc = true

theorem splitScheme_http {scheme : PyStr} (h : scheme ∈ httpSchemes) (rest : PyStr) :
    splitScheme (scheme ++ ':' :: rest) = (scheme, rest) := by
  have hscheme : ∀ s ∈ httpSchemes, ':' ∉ s ∧ s.head?.any isAlpha = true ∧
      s.all isSchemeChar = true ∧ lower s = s := by decide
  obtain ⟨hcolon, halpha, hchars, hlower⟩ := hscheme scheme h
  unfold splitScheme
  simp only
  rw [before_append hcolon, after_append hcolon, if_pos ⟨by simp, halpha, hchars⟩, hlower]

theorem splitNetloc_slashes {netloc rest : PyStr} (h : ∀ c ∈ netloc, isDelimiter c = false)
    (hrest : rest.head? = some '/') :
    splitNetloc ('/' :: '/' :: (netloc ++ rest)) = (netloc, rest) := by
  have hnetloc : ∀ c ∈ netloc, (!isDelimiter c) = true := by
    intro c hc
    rw [h c hc]
    rfl
  obtain ⟨rest', rfl⟩ := List.head?_eq_some_iff.mp hrest
  unfold splitNetloc
  simp only
  rw [List.takeWhile_append_of_pos hnetloc, List.dropWhile_append_of_pos hnetloc,
    List.takeWhile_cons_of_neg (by decide), List.dropWhile_cons_of_neg (by decide), List.append_nil]

/-- What follows the scheme of a printable URL is split without further ado. -/
theorem urlsplit_scheme {scheme rest : PyStr} (hscheme : scheme ∈ httpSchemes)
    (hrest : ∀ c ∈ rest, 32 < c.toNat) :
    urlsplit (scheme ++ ':' :: rest) =
      if checkBrackets (splitNetloc rest).1 && (splitNetloc rest).1.all isAscii then
        some ⟨scheme, (splitNetloc rest).1, before '?' (before '#' (splitNetloc rest).2),
          after '?' (before '#' (splitNetloc rest).2), after '#' (splitNetloc rest).2⟩
      else none := by
  have hprintable : ∀ c ∈ scheme ++ ':' :: rest, 32 < c.toNat := by
    have hs : ∀ s ∈ httpSchemes, s.all (fun c => 32 < c.toNat) = true := by decide
    intro c hc
    simp only [List.mem_append, List.mem_cons] at hc
    rcases hc with hc | rfl | hc
    · exact of_decide_eq_true (List.all_eq_true.mp (hs scheme hscheme) c hc)
    · decide
    · exact hrest c hc
  have hdrop : (scheme ++ ':' :: rest).dropWhile (·.toNat ≤ 32) = scheme ++ ':' :: rest := by
    rw [List.dropWhile_eq_self_iff]
    intro hpos
    have := hprintable _ (List.getElem_mem hpos)
    simp only [decide_eq_true_eq]
    omega
  have hfilter : (scheme ++ ':' :: rest).filter (fun c => c ≠ '\t' && c ≠ '\r' && c ≠ '\n') =
      scheme ++ ':' :: rest := by
    rw [List.filter_eq_self]
    intro c hc
    have hc := hprintable c hc
    have hne : ∀ d : Char, d.toNat ≤ 32 → c ≠ d := by
      rintro d hd rfl
      omega
    simp [hne '\t' (by decide), hne '\r' (by decide), hne '\n' (by decide)]
  unfold urlsplit urlsplitWith
  simp only [Bool.or_false]
  rw [hdrop, hfilter, splitScheme_http hscheme]

/-- The URL of a host and a path splits into them. -/
theorem urlsplit_http {scheme netloc rest : PyStr} (hscheme : scheme ∈ httpSchemes)
    (hnetloc : IsNetloc netloc) (hslash : rest.head? = some '/')
    (hrest : ∀ c ∈ rest, 32 < c.toNat) (hfragment : '#' ∉ rest) :
    urlsplit (scheme ++ "://".toList ++ netloc ++ rest) =
      some ⟨scheme, netloc, before '?' rest, after '?' rest, []⟩ := by
  have hurl : scheme ++ "://".toList ++ netloc ++ rest =
      scheme ++ ':' :: '/' :: '/' :: (netloc ++ rest) := by simp
  have hprintable : ∀ c ∈ '/' :: '/' :: (netloc ++ rest), 32 < c.toNat := by
    intro c hc
    simp only [List.mem_append, List.mem_cons] at hc
    rcases hc with rfl | rfl | hc | hc
    · decide
    · decide
    · exact hnetloc.printable c hc
    · exact hrest c hc
  rw [hurl, urlsplit_scheme hscheme hprintable, splitNetloc_slashes hnetloc.undelimited hslash,
    if_pos (by rw [hnetloc.brackets, List.all_eq_true.mpr hnetloc.ascii]; rfl),
    before_of_notMem hfragment, after_of_notMem hfragment]

/-- The brackets of what is split have been checked. -/
theorem checkBrackets_of_urlsplit {url : PyStr} {u : SplitResult} (h : urlsplit url = some u) :
    checkBrackets u.netloc = true := by
  unfold urlsplit urlsplitWith at h
  simp only at h
  split at h
  · rename_i hcheck
    cases h
    exact (Bool.and_eq_true_iff.mp hcheck).1
  · cases h

/-- A network location in ASCII is not looked at. -/
theorem urlsplitWith_of_urlsplit (nfkcSafe : PyStr → Bool) {url : PyStr} {u : SplitResult}
    (h : urlsplit url = some u) : urlsplitWith nfkcSafe url = some u := by
  unfold urlsplit at h
  unfold urlsplitWith at h ⊢
  simp only [Bool.or_false] at h ⊢
  split at h
  · rename_i hcheck
    rw [Bool.and_eq_true] at hcheck
    rw [if_pos (by rw [hcheck.1, hcheck.2]; rfl)]
    exact h
  · cases h

namespace SplitResult

variable {u : SplitResult}

theorem hostinfo_of_noUser (h : '@' ∉ u.netloc) : u.hostinfo = u.netloc := by
  unfold hostinfo
  rw [List.rtakeWhile_eq_self_iff]
  intro c hc
  rw [decide_eq_true_eq]
  rintro rfl
  exact h hc

theorem username_of_noUser (h : '@' ∉ u.netloc) : u.username = none := if_neg h

theorem password_of_noUser (h : '@' ∉ u.netloc) : u.password = none := if_neg fun hc => h hc.1

/-- Host and port around the first colon. -/
theorem hostPort_plain (h : '@' ∉ u.netloc) (hbracket : '[' ∉ u.netloc) :
    u.hostPort = (before ':' u.netloc, after ':' u.netloc) := by
  unfold hostPort
  rw [hostinfo_of_noUser h, if_neg hbracket]

/-- Host and port of an address in brackets. -/
theorem hostPort_brackets {host tail : PyStr} (h : '@' ∉ u.netloc)
    (hu : u.netloc = '[' :: (host ++ ']' :: tail)) (hhost : ']' ∉ host) :
    u.hostPort = (host, after ':' tail) := by
  have hopen : after '[' ('[' :: (host ++ ']' :: tail)) = host ++ ']' :: tail :=
    after_append (List.not_mem_nil : '[' ∉ [])
  unfold hostPort
  rw [hostinfo_of_noUser h, hu, if_pos List.mem_cons_self, hopen]
  simp only
  rw [before_append hhost, after_append hhost]

/-- A host without a zone is in lower case. -/
theorem hostname_of_noZone (h : '%' ∉ u.hostPort.1) : u.hostname = lower u.hostPort.1 := by
  have hpercent : ∀ c ∈ u.hostPort.1, decide (c ≠ '%') = true := by
    intro c hc
    rw [decide_eq_true_eq]
    rintro rfl
    exact h hc
  unfold hostname
  simp only
  rw [List.takeWhile_eq_self_iff.mpr hpercent, List.dropWhile_eq_nil_iff.mpr hpercent,
    List.append_nil]

/-- A letter of a lower case text that the text itself does not have is in lower case. -/
theorem mem_lower {s : PyStr} {c : Char} (h : c ∈ lower s) :
    c ∈ s ∨ ∃ d, inRange 'A' 'Z' d = true ∧ c = Char.ofNat (d.toNat + 32) := by
  obtain ⟨d, hd, rfl⟩ := List.mem_map.mp h
  split
  · rename_i hupper
    exact .inr ⟨d, hupper, rfl⟩
  · exact .inl hd

/-- What is before a separator does not have it. -/
theorem notMem_before (sep : Char) (s : PyStr) : sep ∉ before sep s := by
  intro h
  have hne := List.mem_takeWhile_imp (p := (· ≠ sep)) h
  exact of_decide_eq_true hne rfl

/-- A hostname has no closing bracket. -/
theorem bracket_notMem_hostPort (h : checkBrackets u.netloc = true) (huser : '@' ∉ u.netloc) :
    ']' ∉ u.hostPort.1 := by
  unfold hostPort
  rw [hostinfo_of_noUser huser]
  by_cases hopen : '[' ∈ u.netloc
  · rw [if_pos hopen]
    exact notMem_before ']' _
  · rw [if_neg hopen]
    unfold checkBrackets at h
    rw [if_neg fun hboth => hopen hboth.1, Bool.and_eq_true, decide_eq_true_eq,
      decide_eq_true_eq] at h
    exact fun hclose => h.2 (List.takeWhile_subset _ hclose)

theorem hostname_ne_nil (h : u.hostPort.1 ≠ []) : u.hostname ≠ [] := by
  intro hname
  obtain ⟨hlower, hdrop⟩ := List.append_eq_nil_iff.mp hname
  have htake := List.map_eq_nil_iff.mp hlower
  apply h
  rw [← List.takeWhile_append_dropWhile (p := (· ≠ '%')) (l := u.hostPort.1), htake, hdrop]
  rfl

end SplitResult

end SrxProbe.Lib
