import SrxProbe.Generators.LoadGen
import SrxProbe.Generators.WebCrawler
import SrxProbe.Lib.IpText

/-!
# Which targets can be crawled

The URL that `target_url` puts together splits into the parts it was made of, and
these pass every check of `validate_url`. So a clean path, a scheme of HTTP and a
port in range are accepted for a target exactly when it is an address or a hostname.
-/

namespace SrxProbe.Generators

open SrxProbe.Lib

/-! ## Characters without a role in a URL -/

/-- A printable character that delimits nothing in a network location. -/
def isPlain (c : Char) : Bool := isPrintable c && c ∉ ['/', '?', '#', '[', ']', '@', '\\']

theorem isPrintable_of_inRange {lo hi c : Char} (h : inRange lo hi c = true) (hlo : 32 < lo.toNat)
    (hhi : hi.toNat < 127) : isPrintable c = true := by
  unfold inRange at h
  simp only [Bool.and_eq_true, decide_eq_true_eq] at h
  unfold isPrintable
  simp only [Bool.and_eq_true, decide_eq_true_eq]
  omega

theorem isPlain_of {p : Char → Bool} {c : Char} (hc : p c = true) (hprint : isPrintable c = true)
    (hp : ['/', '?', '#', '[', ']', '@', '\\'].all (fun d => !p d) = true) : isPlain c = true := by
  unfold isPlain
  rw [hprint, Bool.true_and, decide_eq_true_eq]
  intro hmem
  have hno := List.all_eq_true.mp hp c hmem
  rw [hc] at hno
  exact Bool.false_ne_true hno

theorem isPrintable_of_isAlnum {c : Char} (h : isAlnum c = true) : isPrintable c = true := by
  unfold isAlnum isAlpha at h
  simp only [Bool.or_eq_true] at h
  rcases h with (h | h) | h
  · exact isPrintable_of_inRange h (by decide) (by decide)
  · exact isPrintable_of_inRange h (by decide) (by decide)
  · exact isPrintable_of_inRange h (by decide) (by decide)

theorem isPlain_of_isHostChar {c : Char} (h : isHostChar c = true) : isPlain c = true := by
  refine isPlain_of h ?_ (by decide)
  unfold isHostChar at h
  simp only [Bool.or_eq_true, decide_eq_true_eq] at h
  rcases h with (h | rfl) | rfl
  · exact isPrintable_of_isAlnum h
  · decide
  · decide

theorem isPlain_of_isAddressChar {c : Char} (h : IpAddress.isAddressChar c = true) :
    isPlain c = true := by
  refine isPlain_of h ?_ (by decide)
  unfold IpAddress.isAddressChar at h
  simp only [Bool.or_eq_true, decide_eq_true_eq] at h
  rcases h with (rfl | h) | h
  · decide
  · exact isPrintable_of_inRange h (by decide) (by decide)
  · exact isPrintable_of_inRange h (by decide) (by decide)

theorem isPlain_of_isAsciiDigit {c : Char} (h : IpAddress.isAsciiDigit c = true) :
    isPlain c = true :=
  isPlain_of h (isPrintable_of_inRange h (by decide) (by decide)) (by decide)

/-! ## Lower case -/

theorem inRange_iff {lo hi c : Char} :
    inRange lo hi c = true ↔ lo.toNat ≤ c.toNat ∧ c.toNat ≤ hi.toNat := by
  unfold inRange
  rw [Bool.and_eq_true, decide_eq_true_eq, decide_eq_true_eq]

theorem lower_letters : ∀ n < 26, inRange 'a' 'z' (Char.ofNat ('A'.toNat + n + 32)) = true := by
  decide

theorem isLower_lower {c : Char} (h : inRange 'A' 'Z' c = true) :
    inRange 'a' 'z' (Char.ofNat (c.toNat + 32)) = true := by
  obtain ⟨hlo, hhi⟩ := inRange_iff.mp h
  have hz : 'Z'.toNat = 'A'.toNat + 25 := by decide
  have hc : c.toNat = 'A'.toNat + (c.toNat - 'A'.toNat) := by omega
  rw [hc]
  exact lower_letters _ (by omega)

/-- Lower case keeps a class of characters that has both cases of the letters. -/
theorem all_lower {p : Char → Bool} (hp : ∀ c, inRange 'a' 'z' c = true → p c = true) {s : PyStr}
    (h : ∀ c ∈ s, p c = true) : ∀ c ∈ lower s, p c = true := by
  intro c hc
  obtain ⟨d, hd, rfl⟩ := List.mem_map.mp hc
  split
  · rename_i hupper
    exact hp _ (isLower_lower hupper)
  · exact h d hd

theorem isAlnum_of_lower {c : Char} (h : inRange 'a' 'z' c = true) : isAlnum c = true := by
  unfold isAlnum isAlpha
  rw [h, Bool.or_true, Bool.true_or]

theorem isHostname_lower {host : PyStr} (h : isHostname host = true) :
    isHostname (lower host) = true := by
  cases host with
  | nil => cases h
  | cons c rest =>
      unfold isHostname at h
      simp only [Bool.and_eq_true, decide_eq_true_eq] at h
      obtain ⟨⟨hc, hrest⟩, hlen⟩ := h
      have hhost : ∀ d, inRange 'a' 'z' d = true → isHostChar d = true := by
        intro d hd
        unfold isHostChar
        rw [isAlnum_of_lower hd, Bool.true_or, Bool.true_or]
      have hfirst := all_lower (fun d => isAlnum_of_lower) (s := [c]) (by simpa using hc)
      have hmore := all_lower hhost (fun d hd => List.all_eq_true.mp hrest d hd)
      unfold lower at hfirst hmore ⊢
      rw [List.map_cons]
      unfold isHostname
      simp only [Bool.and_eq_true, decide_eq_true_eq, List.length_map]
      exact ⟨⟨hfirst _ (by simp), List.all_eq_true.mpr hmore⟩, hlen⟩

/-- Lower case leaves a text without capitals alone. -/
theorem lower_of_noUpper {s : PyStr} (h : ∀ c ∈ s, ¬ inRange 'A' 'Z' c = true) : lower s = s := by
  unfold lower
  refine (List.map_congr_left ?_).trans (List.map_id s)
  intro c hc
  rw [if_neg (h c hc)]
  rfl

theorem lower_lower (s : PyStr) : lower (lower s) = lower s := by
  apply lower_of_noUpper
  intro c hc hupper
  obtain ⟨d, hd, rfl⟩ := List.mem_map.mp hc
  split at hupper
  · rename_i hd
    obtain ⟨-, hhigh⟩ := inRange_iff.mp hupper
    obtain ⟨hlow, -⟩ := inRange_iff.mp (isLower_lower hd)
    have hz : 'Z'.toNat = 90 := by decide
    have ha : 'a'.toNat = 97 := by decide
    omega
  · contradiction

theorem not_upper_of_isAddressChar {c : Char} (hc : IpAddress.isAddressChar c = true) :
    ¬ inRange 'A' 'Z' c = true := by
  intro hupper
  obtain ⟨hlo, hhi⟩ := inRange_iff.mp hupper
  unfold IpAddress.isAddressChar at hc
  simp only [Bool.or_eq_true, decide_eq_true_eq, inRange_iff] at hc
  have ha : 'A'.toNat = 65 := by decide
  have hz : 'Z'.toNat = 90 := by decide
  have hnine : '9'.toNat = 57 := by decide
  have hlower : 'a'.toNat = 97 := by decide
  rcases hc with (rfl | hc) | hc
  · exact absurd hlo (by decide)
  · omega
  · omega

/-! ## Paths -/

/-- The conditions of `validate_path`, taken apart. -/
structure IsPath (path : PyStr) : Prop where
  short : path.length ≤ 2048
  slash : path.head? = some '/'
  oneSlash : "//".toList.isPrefixOf path = false
  noBackslash : '\\' ∉ path
  noFragment : '#' ∉ path
  printable : ∀ c ∈ path, isPrintable c = true
  clean : ∀ c ∈ unquote path, isHidden c = false

theorem slash_isPrefixOf (path : PyStr) :
    "/".toList.isPrefixOf path = true ↔ path.head? = some '/' := by
  show List.isPrefixOf ['/'] path = true ↔ _
  cases path with
  | nil => simp
  | cons c rest =>
      show (('/' == c) && true) = true ↔ some c = some '/'
      rw [Bool.and_true, beq_iff_eq, Option.some_inj]
      exact eq_comm

theorem isCleanPath_iff {path : PyStr} : isCleanPath path = true ↔
    "//".toList.isPrefixOf path = false ∧ '\\' ∉ path ∧ '#' ∉ path ∧
      (∀ c ∈ path, isPrintable c = true) ∧ ∀ c ∈ unquote path, isHidden c = false := by
  unfold isCleanPath
  simp only [Bool.and_eq_true, Bool.not_eq_true', decide_eq_true_eq, List.all_eq_true,
    List.any_eq_false, and_assoc, Bool.not_eq_true]

theorem validatePath_ok_iff {path : PyStr} : validatePath path = .ok () ↔ IsPath path := by
  unfold validatePath
  constructor
  · intro h
    split at h
    · cases h
    · rename_i hno
      simp only [Bool.or_eq_true, Bool.not_eq_true', decide_eq_true_eq, not_or, Nat.not_lt,
        Bool.not_eq_false] at hno
      obtain ⟨⟨hlen, hslash⟩, hclean⟩ := hno
      obtain ⟨hone, hback, hfrag, hprint, hhidden⟩ := isCleanPath_iff.mp hclean
      exact ⟨hlen, (slash_isPrefixOf path).mp hslash, hone, hback, hfrag, hprint, hhidden⟩
  · intro h
    have hclean := isCleanPath_iff.mpr
      ⟨h.oneSlash, h.noBackslash, h.noFragment, h.printable, h.clean⟩
    rw [if_neg]
    simp only [Bool.or_eq_true, Bool.not_eq_true', decide_eq_true_eq, not_or, Nat.not_lt,
      Bool.not_eq_false]
    exact ⟨⟨h.short, (slash_isPrefixOf path).mpr h.slash⟩, hclean⟩

theorem isAscii_of_isPrintable {c : Char} (h : isPrintable c = true) : isAscii c = true := by
  unfold isPrintable at h
  simp only [Bool.and_eq_true, decide_eq_true_eq] at h
  unfold isAscii
  rw [decide_eq_true_eq]
  omega

theorem IsPath.lt {path : PyStr} (h : IsPath path) : ∀ c ∈ path, 32 < c.toNat := by
  intro c hc
  have hprint := h.printable c hc
  unfold isPrintable at hprint
  simp only [Bool.and_eq_true, decide_eq_true_eq] at hprint
  exact hprint.1

/-- A path without a question mark at its end is still a path. -/
theorem IsPath.dropQuery {path : PyStr} (h : IsPath (path ++ ['?'])) : IsPath path where
  short := by
    have := h.short
    rw [List.length_append] at this
    omega
  slash := by
    have hslash := h.slash
    cases path with
    | nil => exact absurd hslash (by decide)
    | cons c rest => exact hslash
  oneSlash := by
    have hone := h.oneSlash
    rw [Bool.eq_false_iff] at hone ⊢
    intro hprefix
    apply hone
    rw [List.isPrefixOf_iff_prefix] at hprefix ⊢
    exact hprefix.trans (List.prefix_append _ _)
  noBackslash := fun hc => h.noBackslash (List.mem_append_left _ hc)
  noFragment := fun hc => h.noFragment (List.mem_append_left _ hc)
  printable := fun c hc => h.printable c (List.mem_append_left _ hc)
  clean := by
    intro c hc
    have hascii : ∀ d ∈ path, isAscii d = true := fun d hd =>
      isAscii_of_isPrintable (h.printable d (List.mem_append_left _ hd))
    have hsplit := unquote_append hascii (c := '?') (by decide) (by decide)
    exact h.clean c (hsplit ▸ List.mem_append_left _ hc)

/-- The path and the query of a URL are joined to the path they came from, or to that
path without an empty query. -/
theorem IsPath.rejoin_eq {path : PyStr} (h : IsPath path) {joined : PyStr}
    (hjoined : joined = (if before '?' path = [] then "/".toList else before '?' path) ++
      (if after '?' path = [] then [] else '?' :: after '?' path)) :
    joined = path ∨ joined ++ ['?'] = path := by
  have hne : before '?' path ≠ [] := by
    obtain ⟨rest, hrest⟩ := List.head?_eq_some_iff.mp h.slash
    rw [hrest]
    unfold before
    rw [List.takeWhile_cons_of_pos (by decide)]
    exact List.cons_ne_nil _ _
  rw [hjoined, if_neg hne]
  by_cases hquery : '?' ∈ path
  · have hparts := before_after hquery
    by_cases hempty : after '?' path = []
    · right
      rw [hempty] at hparts
      rw [if_pos hempty, List.append_nil]
      exact hparts.symm
    · left
      rw [if_neg hempty]
      exact hparts.symm
  · left
    rw [before_of_notMem hquery, after_of_notMem hquery, if_pos rfl, List.append_nil]

theorem IsPath.rejoin {path : PyStr} (h : IsPath path) :
    IsPath ((if before '?' path = [] then "/".toList else before '?' path) ++
      (if after '?' path = [] then [] else '?' :: after '?' path)) := by
  rcases h.rejoin_eq rfl with heq | heq
  · rw [heq]
    exact h
  · exact IsPath.dropQuery (heq.symm ▸ h)

/-! ## Network locations -/

theorem isPlain_iff {c : Char} : isPlain c = true ↔
    isPrintable c = true ∧ c ∉ ['/', '?', '#', '[', ']', '@', '\\'] := by
  unfold isPlain
  rw [Bool.and_eq_true, decide_eq_true_eq]

theorem isPrintable_of_isPlain {c : Char} (h : isPlain c = true) : isPrintable c = true :=
  (isPlain_iff.mp h).1

theorem notMem_of_isPlain {s : PyStr} (h : ∀ c ∈ s, isPlain c = true) {d : Char}
    (hd : d ∈ ['/', '?', '#', '[', ']', '@', '\\']) : d ∉ s :=
  fun hmem => (isPlain_iff.mp (h d hmem)).2 hd

theorem isDelimiter_of_isPlain {c : Char} (h : isPlain c = true) : isDelimiter c = false := by
  have hno := (isPlain_iff.mp h).2
  simp only [List.mem_cons, not_or] at hno
  unfold isDelimiter
  simp [hno.1, hno.2.1, hno.2.2.1]

theorem lt_of_isPrintable {c : Char} (h : isPrintable c = true) : 32 < c.toNat := by
  unfold isPrintable at h
  simp only [Bool.and_eq_true, decide_eq_true_eq] at h
  exact h.1

theorem isNetloc_of_plain {netloc : PyStr} (h : ∀ c ∈ netloc, isPlain c = true) :
    IsNetloc netloc where
  printable := fun c hc => lt_of_isPrintable (isPrintable_of_isPlain (h c hc))
  ascii := fun c hc => isAscii_of_isPrintable (isPrintable_of_isPlain (h c hc))
  undelimited := fun c hc => isDelimiter_of_isPlain (h c hc)
  noUser := notMem_of_isPlain h (by decide)
  brackets := by
    have hopen := notMem_of_isPlain h (by decide : '[' ∈ _)
    have hclose := notMem_of_isPlain h (by decide : ']' ∈ _)
    unfold checkBrackets
    rw [if_neg fun hb => hopen hb.1]
    simp [hopen, hclose]

theorem isNetloc_of_bracketed {host tail : PyStr} (hhost : ∀ c ∈ host, isPlain c = true)
    (htail : ∀ c ∈ tail, isPlain c = true) (hcheck : checkBracketedHost host = true) :
    IsNetloc ('[' :: (host ++ ']' :: tail)) := by
  have hmem : ∀ c ∈ '[' :: (host ++ ']' :: tail), c = '[' ∨ c = ']' ∨ isPlain c = true := by
    intro c hc
    simp only [List.mem_cons, List.mem_append] at hc
    rcases hc with rfl | hc | rfl | hc
    · exact .inl rfl
    · exact .inr (.inr (hhost c hc))
    · exact .inr (.inl rfl)
    · exact .inr (.inr (htail c hc))
  refine ⟨?_, ?_, ?_, ?_, ?_⟩
  · intro c hc
    rcases hmem c hc with rfl | rfl | hc
    · decide
    · decide
    · exact lt_of_isPrintable (isPrintable_of_isPlain hc)
  · intro c hc
    rcases hmem c hc with rfl | rfl | hc
    · decide
    · decide
    · exact isAscii_of_isPrintable (isPrintable_of_isPlain hc)
  · intro c hc
    rcases hmem c hc with rfl | rfl | hc
    · decide
    · decide
    · exact isDelimiter_of_isPlain hc
  · intro hc
    rcases hmem '@' hc with h | h | h
    · exact absurd h (by decide)
    · exact absurd h (by decide)
    · exact absurd h (by decide)
  · have hopen : after '[' ('[' :: (host ++ ']' :: tail)) = host ++ ']' :: tail :=
      after_append (List.not_mem_nil : '[' ∉ [])
    have hclose := notMem_of_isPlain hhost (by decide : ']' ∈ _)
    unfold checkBrackets
    rw [if_pos (by simp), hopen, before_append hclose, hcheck]

/-- A host as it stands in a URL: with a port behind it, it is found again, and it is
accepted. -/
structure UrlHost (host : PyStr) : Prop where
  short : host.length ≤ 320
  printable : ∀ c ∈ host, isPrintable c = true ∧ c ≠ '\\'
  netloc : ∀ port, (∀ c ∈ port, isPlain c = true) → IsNetloc (host ++ ':' :: port)
  hostPort : ∀ port, ∀ u : SplitResult, (∀ c ∈ port, isPlain c = true) →
    u.netloc = host ++ ':' :: port → u.hostPort.2 = port ∧ u.hostname ≠ [] ∧
      ((ipAddress u.hostname).isSome = true ∨ isHostname u.hostname = true)

theorem cons_plain {port : PyStr} (h : ∀ c ∈ port, isPlain c = true) :
    ∀ c ∈ ':' :: port, isPlain c = true := by
  intro c hc
  rcases List.mem_cons.mp hc with rfl | hc
  · decide
  · exact h c hc

theorem isHostChar_of_isHostname {host : PyStr} (h : isHostname host = true) :
    host ≠ [] ∧ host.length ≤ 253 ∧ ∀ c ∈ host, isHostChar c = true := by
  cases host with
  | nil => cases h
  | cons c rest =>
      unfold isHostname at h
      simp only [Bool.and_eq_true, decide_eq_true_eq, List.all_eq_true] at h
      refine ⟨List.cons_ne_nil _ _, by simp only [List.length_cons]; omega, ?_⟩
      intro d hd
      rcases List.mem_cons.mp hd with rfl | hd
      · unfold isHostChar
        rw [h.1.1, Bool.true_or, Bool.true_or]
      · exact h.1.2 d hd

/-- Hostnames, and IPv4 addresses. -/
theorem UrlHost.ofHostname {host : PyStr} (h : isHostname host = true) : UrlHost host := by
  obtain ⟨hne, hlen, hchars⟩ := isHostChar_of_isHostname h
  have hplain : ∀ c ∈ host, isPlain c = true := fun c hc => isPlain_of_isHostChar (hchars c hc)
  have hall : ∀ {port : PyStr}, (∀ c ∈ port, isPlain c = true) →
      ∀ c ∈ host ++ ':' :: port, isPlain c = true := by
    intro port hport c hc
    rcases List.mem_append.mp hc with hc | hc
    · exact hplain c hc
    · exact cons_plain hport c hc
  refine ⟨by omega, ?_, fun port hport => isNetloc_of_plain (hall hport), ?_⟩
  · intro c hc
    refine ⟨isPrintable_of_isPlain (hplain c hc), ?_⟩
    rintro rfl
    exact notMem_of_isPlain hplain (by decide) hc
  · intro port u hport hu
    have hpair := SplitResult.hostPort_plain
      (hu ▸ notMem_of_isPlain (hall hport) (by decide) : '@' ∉ u.netloc)
      (hu ▸ notMem_of_isPlain (hall hport) (by decide) : '[' ∉ u.netloc)
    have hcolon : ':' ∉ host := fun hc => absurd (hchars ':' hc) (by decide)
    rw [hu, before_append hcolon, after_append hcolon] at hpair
    have hzone : '%' ∉ u.hostPort.1 := by
      rw [hpair]
      exact fun hc => absurd (hchars '%' hc) (by decide)
    have haccepted := isHostname_lower h
    rw [SplitResult.hostname_of_noZone hzone, hpair]
    exact ⟨rfl, (isHostChar_of_isHostname haccepted).1, .inr haccepted⟩

/-- The text of an IPv6 address that was read from a plain target. -/
theorem mem_str_v6 {target : PyStr} {ip : Nat} {scopeId : Option PyStr}
    (h : ipAddress target = some (.v6 ip scopeId)) (hplain : ∀ c ∈ target, isPlain c = true) :
    ∀ c ∈ IpAddress.str (.v6 ip scopeId), isPlain c = true := by
  intro c hc
  rw [IpAddress.str_v6] at hc
  rcases List.mem_append.mp hc with hc | hc
  · exact isPlain_of_isAddressChar (IpAddress.isAddressChar_of_mem_numberText hc)
  · cases scopeId with
    | none => cases hc
    | some scope =>
        rcases List.mem_cons.mp hc with rfl | hc
        · decide
        · exact hplain c ((IpAddress.isScope_of_ipAddress h scope rfl).2.subset hc)

theorem length_str_v6 {target : PyStr} {ip : Nat} {scopeId : Option PyStr}
    (h : ipAddress target = some (.v6 ip scopeId)) :
    (IpAddress.str (.v6 ip scopeId)).length ≤ 56 + target.length := by
  have hnumber := IpAddress.length_numberText ip
  rw [IpAddress.str_v6, List.length_append]
  cases scopeId with
  | none =>
      simp only [List.length_nil]
      omega
  | some scope =>
      have hscope := (IpAddress.isScope_of_ipAddress h scope rfl).2.length_le
      simp only [List.length_cons]
      omega

theorem checkBracketedHost_str_v6 {ip : Nat} {scopeId : Option PyStr}
    (h : ∀ scope ∈ scopeId, IpAddress.IsScope scope) :
    checkBracketedHost (IpAddress.str (.v6 ip scopeId)) = true := by
  have hread := IpAddress.ipAddress_str_v6 ip h
  unfold checkBracketedHost
  split
  · rename_i rest hstr
    exfalso
    rw [IpAddress.str_v6] at hstr
    obtain ⟨c, text, hnumber⟩ := List.exists_cons_of_ne_nil
      (List.ne_nil_of_mem (IpAddress.colon_mem_numberText ip))
    have hc := IpAddress.isAddressChar_of_mem_numberText (hnumber ▸ List.mem_cons_self : c ∈ _)
    rw [hnumber, List.cons_append] at hstr
    rw [(List.cons.inj hstr).1] at hc
    exact absurd hc (by decide)
  · rw [hread]
    rfl

/-- Lower case leaves a printed address alone, the scope aside. -/
theorem lower_str_v6 (ip : Nat) (scopeId : Option PyStr) :
    lower ((IpAddress.str (.v6 ip scopeId)).takeWhile (· ≠ '%')) ++
      (IpAddress.str (.v6 ip scopeId)).dropWhile (· ≠ '%') = IpAddress.str (.v6 ip scopeId) := by
  have hpercent : ∀ c ∈ IpAddress.numberText ip, decide (c ≠ '%') = true :=
    fun c => IpAddress.ne_percent_of_mem_numberText
  have hlower : lower (IpAddress.numberText ip) = IpAddress.numberText ip :=
    lower_of_noUpper fun c hc =>
      not_upper_of_isAddressChar (IpAddress.isAddressChar_of_mem_numberText hc)
  rw [IpAddress.str_v6, List.takeWhile_append_of_pos hpercent,
    List.dropWhile_append_of_pos hpercent]
  cases scopeId with
  | none => simp [hlower]
  | some scope =>
      simp only
      rw [List.takeWhile_cons_of_neg (by decide), List.dropWhile_cons_of_neg (by decide),
        List.append_nil, hlower]

/-- IPv6 addresses, in brackets. -/
theorem UrlHost.ofV6 {target : PyStr} {ip : Nat} {scopeId : Option PyStr}
    (h : ipAddress target = some (.v6 ip scopeId)) (hplain : ∀ c ∈ target, isPlain c = true)
    (hlen : target.length ≤ 253) :
    UrlHost ('[' :: (IpAddress.str (.v6 ip scopeId) ++ "]".toList)) := by
  have hscope : ∀ scope ∈ scopeId, IpAddress.IsScope scope :=
    fun scope hs => (IpAddress.isScope_of_ipAddress h scope hs).1
  have hstr := mem_str_v6 h hplain
  have hurl : ∀ port, '[' :: (IpAddress.str (.v6 ip scopeId) ++ "]".toList) ++ ':' :: port =
      '[' :: (IpAddress.str (.v6 ip scopeId) ++ ']' :: ':' :: port) := by
    intro port
    simp
  refine ⟨?_, ?_, ?_, ?_⟩
  · have hlen' := length_str_v6 h
    simp only [List.length_cons, List.length_append]
    have : "]".toList.length = 1 := by decide
    omega
  · intro c hc
    rw [show "]".toList = [']'] by decide] at hc
    simp only [List.mem_cons, List.mem_append, List.not_mem_nil, or_false] at hc
    rcases hc with rfl | hc | rfl
    · decide
    · refine ⟨isPrintable_of_isPlain (hstr c hc), ?_⟩
      rintro rfl
      exact notMem_of_isPlain hstr (by decide) hc
    · decide
  · intro port hport
    rw [hurl]
    exact isNetloc_of_bracketed hstr (cons_plain hport) (checkBracketedHost_str_v6 hscope)
  · intro port u hport hu
    rw [hurl] at hu
    have huser : '@' ∉ u.netloc :=
      hu ▸ (isNetloc_of_bracketed hstr (cons_plain hport) (checkBracketedHost_str_v6 hscope)).noUser
    have hpair := SplitResult.hostPort_brackets huser hu (notMem_of_isPlain hstr (by decide))
    have hafter : after ':' (':' :: port) = port := after_append (List.not_mem_nil : ':' ∉ [])
    rw [hafter] at hpair
    have hname : u.hostname = IpAddress.str (.v6 ip scopeId) := by
      unfold SplitResult.hostname
      rw [hpair]
      exact lower_str_v6 ip scopeId
    rw [hpair, hname, IpAddress.ipAddress_str_v6 ip hscope]
    refine ⟨rfl, ?_, .inl rfl⟩
    rw [IpAddress.str_v6]
    exact List.append_ne_nil_of_left_ne_nil
      (List.ne_nil_of_mem (IpAddress.colon_mem_numberText ip)) _

theorem isHostname_str_v4 (ip : Nat) : isHostname (IpAddress.str (.v4 ip)) = true := by
  obtain ⟨d, rest, hstr, hd, hrest, hlen⟩ := IpAddress.str_v4_eq_cons ip
  have halnum : ∀ c, IpAddress.isAsciiDigit c = true → isAlnum c = true := by
    intro c hc
    unfold isAlnum
    rw [show inRange '0' '9' c = true from hc, Bool.or_true]
  rw [hstr]
  unfold isHostname
  simp only [Bool.and_eq_true, decide_eq_true_eq, List.all_eq_true]
  refine ⟨⟨halnum d hd, ?_⟩, by omega⟩
  intro c hc
  unfold isHostChar
  rcases hrest c hc with rfl | hc
  · rfl
  · rw [halnum c hc, Bool.true_or, Bool.true_or]

/-! ## The URL is accepted -/

/-- A port number is written in plain digits and read back. -/
theorem port_text {port : Int} (h : 1 ≤ port) (h' : port ≤ 65535) :
    (∀ c ∈ intText port, IpAddress.isAsciiDigit c = true) ∧ intText port ≠ [] ∧
      (intText port).length ≤ 5 ∧ parseInt (intText port) = some port := by
  have htext : intText port = Nat.toDigits 10 port.natAbs := if_neg (by omega)
  have hlen : (Nat.toDigits 10 port.natAbs).length ≤ 5 :=
    length_toDigits_of_lt (by omega) (by decide)
  refine ⟨?_, htext ▸ Nat.toDigits_ne_nil, htext ▸ hlen,
    parseInt_intText (hlen.trans (by decide))⟩
  intro c hc
  rw [htext] at hc
  exact IpAddress.isAsciiDigit_of_mem_toDigits hc

/-- `u.port` of a network location that ends in a port number. -/
theorem port_of_hostPort {u : SplitResult} {port : Int} (h : 1 ≤ port) (h' : port ≤ 65535)
    (hu : u.hostPort.2 = intText port) : u.port = some (some port) := by
  obtain ⟨hdigits, hne, -, hparse⟩ := port_text h h'
  unfold SplitResult.port
  rw [hu]
  split
  · rename_i hnil
    exact absurd hnil hne
  · rw [if_pos (List.all_eq_true.mpr hdigits), hparse]
    exact if_pos h'

theorem validateUrl_ok {scheme host path : PyStr} {port : Int} (hscheme : scheme ∈ httpSchemes)
    (hhost : UrlHost host) (hmin : 1 ≤ port) (hmax : port ≤ 65535) (hpath : IsPath path) :
    ∃ parsed, validateUrl (scheme ++ "://".toList ++ host ++ (':' :: intText port) ++ path) =
      .ok parsed := by
  obtain ⟨hdigits, -, hport, -⟩ := port_text hmin hmax
  have hplain : ∀ c ∈ intText port, isPlain c = true :=
    fun c hc => isPlain_of_isAsciiDigit (hdigits c hc)
  have hnetloc := hhost.netloc _ hplain
  have hsplit := urlsplit_http hscheme hnetloc hpath.slash hpath.lt hpath.noFragment
  have hnames : ∀ s ∈ httpSchemes, s.length ≤ 5 ∧ s.all isPrintable = true ∧ '\\' ∉ s := by
    decide
  obtain ⟨hslen, hsprint, hsback⟩ := hnames scheme hscheme
  have hurl : scheme ++ "://".toList ++ host ++ (':' :: intText port) ++ path =
      scheme ++ "://".toList ++ (host ++ ':' :: intText port) ++ path := by
    simp only [List.append_assoc]
  -- the tests of `validate_url` in their order: length and characters, then the parts
  have hlen : (scheme ++ "://".toList ++ (host ++ ':' :: intText port) ++ path).length ≤ 4096 := by
    have hshort := hhost.short
    have hpshort := hpath.short
    have hsep : "://".toList.length = 3 := by decide
    simp only [List.length_append, List.length_cons]
    omega
  have hchars : ∀ c ∈ scheme ++ "://".toList ++ (host ++ ':' :: intText port) ++ path,
      isPrintable c = true ∧ c ≠ '\\' := by
    have hplain' : ∀ c, isPlain c = true → isPrintable c = true ∧ c ≠ '\\' := by
      intro c hc
      refine ⟨isPrintable_of_isPlain hc, ?_⟩
      rintro rfl
      exact absurd hc (by decide)
    have hsep : ∀ c ∈ "://".toList, isPrintable c = true ∧ c ≠ '\\' := by
      rw [show "://".toList = [':', '/', '/'] by decide]
      simp only [List.mem_cons, List.not_mem_nil, or_false]
      rintro c (rfl | rfl | rfl) <;> decide
    intro c hc
    simp only [List.mem_append] at hc
    rcases hc with ((hc | hc) | hc | hc) | hc
    · exact ⟨List.all_eq_true.mp hsprint c hc, fun h => hsback (h ▸ hc)⟩
    · exact hsep c hc
    · exact hhost.printable c hc
    · exact hplain' c (cons_plain hplain c hc)
    · exact ⟨hpath.printable c hc, fun h => hpath.noBackslash (h ▸ hc)⟩
  obtain ⟨hportText, hne, haccepted⟩ := hhost.hostPort (intText port)
    ⟨scheme, host ++ ':' :: intText port, before '?' path, after '?' path, []⟩ hplain rfl
  -- neither user nor password, as the host has no `@`
  have huser := SplitResult.username_of_noUser
    (u := ⟨scheme, host ++ ':' :: intText port, before '?' path, after '?' path, []⟩) hnetloc.noUser
  have hpassword := SplitResult.password_of_noUser
    (u := ⟨scheme, host ++ ':' :: intText port, before '?' path, after '?' path, []⟩) hnetloc.noUser
  have hparsedPort := port_of_hostPort hmin hmax hportText
  refine ⟨⟨scheme, host ++ ':' :: intText port, before '?' path, after '?' path, []⟩, ?_⟩
  have hbad : ¬ (4096 < (scheme ++ "://".toList ++ (host ++ ':' :: intText port) ++ path).length ∨
      (scheme ++ "://".toList ++ (host ++ ':' :: intText port) ++ path).all isPrintable = false ∨
      '\\' ∈ scheme ++ "://".toList ++ (host ++ ':' :: intText port) ++ path) := by
    rintro (hlong | hall | hback)
    · omega
    · rw [List.all_eq_true.mpr fun c hc => (hchars c hc).1] at hall
      cases hall
    · exact (hchars _ hback).2 rfl
  have hhostOk : ¬ (ipAddress (SplitResult.hostname ⟨scheme, host ++ ':' :: intText port,
      before '?' path, after '?' path, []⟩) = none ∧ isHostname (SplitResult.hostname
      ⟨scheme, host ++ ':' :: intText port, before '?' path, after '?' path, []⟩) = false) := by
    rintro ⟨hip, hname⟩
    rcases haccepted with h | h
    · rw [hip] at h
      cases h
    · rw [hname] at h
      cases h
  have hport0 : ¬ some port = some 0 := by
    intro h
    have := Option.some.inj h
    omega
  rw [hurl]
  unfold validateUrl
  rw [raiseIf_of_not hbad, ok_bind, hsplit, orRaise_some]
  simp only [ok_bind]
  rw [raiseIf_of_not (by simp [hscheme, hne, huser, hpassword]), hparsedPort, orRaise_some, ok_bind,
    ok_bind, raiseIf_of_not hport0, ok_bind, raiseIf_of_not hhostOk, ok_bind,
    validatePath_ok_iff.mpr hpath.rejoin, ok_bind]

theorem targetHost_ok {target : PyStr} (hplain : ∀ c ∈ target, isPlain c = true)
    (hlen : target.length ≤ 253) (h : (ipAddress target).isSome = true ∨ isHostname target = true) :
    ∃ host, targetHost target = .ok host ∧ UrlHost host := by
  unfold targetHost
  cases hip : ipAddress target with
  | none =>
      rw [hip] at h
      rcases h with h | h
      · cases h
      · exact ⟨target, if_pos h, .ofHostname h⟩
  | some address =>
      cases address with
      | v4 ip => exact ⟨_, rfl, .ofHostname (isHostname_str_v4 ip)⟩
      | v6 ip scopeId => exact ⟨_, rfl, .ofV6 hip hplain hlen⟩

theorem targetHost_error {target : PyStr} {host : PyStr} (h : targetHost target = .ok host) :
    (ipAddress target).isSome = true ∨ isHostname target = true := by
  unfold targetHost at h
  split at h
  · rename_i hip
    exact .inl (by rw [hip]; rfl)
  · rename_i hip
    exact .inl (by rw [hip]; rfl)
  · split at h
    · rename_i hname
      exact .inr hname
    · cases h

/-- **A target can be crawled exactly when it is an address or a hostname**, given a
clean path, a scheme of HTTP and a port in range. -/
theorem targetUrl_ok_iff {target path scheme : PyStr} {port : Int}
    (hplain : ∀ c ∈ target, isPlain c = true) (hne : target ≠ []) (hlen : target.length ≤ 253)
    (hpath : validatePath path = .ok ()) (hscheme : scheme ∈ httpSchemes) (hmin : 1 ≤ port)
    (hmax : port ≤ 65535) : (∃ url, targetUrl target path scheme (.int port) = .ok url) ↔
      ((ipAddress target).isSome = true ∨ isHostname target = true) := by
  have hsuffix : portSuffix (.int port) = .ok (':' :: intText port) := if_pos ⟨hmin, hmax⟩
  unfold targetUrl
  rw [hpath, ok_bind, raiseIf_of_not hne, ok_bind, hsuffix]
  constructor
  · rintro ⟨url, h⟩
    obtain ⟨host, hhost, -⟩ := bind_ok_iff.mp h
    exact targetHost_error hhost
  · intro h
    obtain ⟨host, hhost, hurlHost⟩ := targetHost_ok hplain hlen h
    obtain ⟨parsed, hparsed⟩ := validateUrl_ok hscheme hurlHost hmin hmax
      (validatePath_ok_iff.mp hpath)
    rw [hhost, ok_bind, ok_bind]
    simp only
    rw [hparsed]
    exact ⟨_, rfl⟩

/-! ## The default URL of a load -/

/-- No port, or the digits of one that a load accepts. -/
def IsPortText (port : PyStr) : Prop :=
  port = [] ∨ (∀ c ∈ port, IpAddress.isAsciiDigit c = true) ∧
    ∃ n, parseInt port = some n ∧ 1 ≤ n ∧ n ≤ 65535

/-- The port of a URL without user and brackets, by the text behind its first colon. -/
theorem port_plain {u : SplitResult} (huser : '@' ∉ u.netloc) (hbracket : '[' ∉ u.netloc) :
    (∃ port, u.port = some port ∧ 1 ≤ port.getD 80 ∧ port.getD 80 ≤ 65535) ↔
      IsPortText (after ':' u.netloc) := by
  unfold SplitResult.port IsPortText
  rw [SplitResult.hostPort_plain huser hbracket]
  simp only
  cases hport : after ':' u.netloc with
  | nil =>
      simp only [true_or, iff_true]
      exact ⟨none, rfl, by decide, by decide⟩
  | cons c rest =>
      simp only [reduceCtorEq, false_or]
      by_cases hdigits : (c :: rest).all IpAddress.isAsciiDigit = true
      · rw [if_pos hdigits]
        cases hparse : parseInt (c :: rest) with
        | none => simp
        | some n =>
            simp only [Option.some.injEq]
            constructor
            · rintro ⟨port, hsome, hmin, hmax⟩
              split at hsome
              · cases hsome
                exact ⟨List.all_eq_true.mp hdigits, n, rfl, hmin, hmax⟩
              · cases hsome
            · rintro ⟨-, m, rfl, hmin, hmax⟩
              exact ⟨some n, if_pos hmax, hmin, hmax⟩
      · rw [if_neg hdigits]
        constructor
        · rintro ⟨port, hsome, -⟩
          cases hsome
        · rintro ⟨hall, -⟩
          exact absurd (List.all_eq_true.mpr hall) hdigits

/-- **A load accepts the default URL of a target exactly when what stands behind the
first colon of the target is the text of a port.** -/
theorem httpPort_ok_iff {target : PyStr} (hplain : ∀ c ∈ target, isPlain c = true)
    (hhead : target.head?.any isAlnum = true) :
    (∃ n, httpPort ("http://".toList ++ target ++ "/".toList) = .ok n) ↔
      IsPortText (after ':' target) := by
  have hnetloc := isNetloc_of_plain hplain
  have hhttp : "http".toList ∈ httpSchemes := by decide
  have hslash : "/".toList.head? = some '/' := rfl
  have hsplit := urlsplit_http hhttp hnetloc hslash (by simp) (by simp)
  have hurl : "http://".toList ++ target ++ "/".toList =
      "http".toList ++ "://".toList ++ target ++ "/".toList := by
    rw [show "http://".toList = "http".toList ++ "://".toList from rfl]
  have hbracket : '[' ∉ target := notMem_of_isPlain hplain (by decide)
  have hpair := SplitResult.hostPort_plain (u := ⟨"http".toList, target, before '?' "/".toList,
    after '?' "/".toList, []⟩) hnetloc.noUser hbracket
  have hname : SplitResult.hostname ⟨"http".toList, target, before '?' "/".toList,
      after '?' "/".toList, []⟩ ≠ [] := by
    apply SplitResult.hostname_ne_nil
    rw [hpair]
    cases target with
    | nil => cases hhead
    | cons c rest =>
        have hcolon : c ≠ ':' := by
          rintro rfl
          have halnum : isAlnum ':' = true := hhead
          exact absurd halnum (by decide)
        unfold before
        rw [List.takeWhile_cons_of_pos (by simpa using hcolon)]
        exact List.cons_ne_nil _ _
  rw [← port_plain (u := ⟨"http".toList, target, before '?' "/".toList, after '?' "/".toList, []⟩)
    hnetloc.noUser hbracket]
  unfold httpPort
  rw [hurl, hsplit, orRaise_some, ok_bind, raiseIf_of_not (by
    rintro (h | h)
    · exact h hhttp
    · exact hname h), ok_bind]
  constructor
  · rintro ⟨n, h⟩
    obtain ⟨port, hport, h⟩ := bind_ok_iff.mp h
    obtain ⟨hmin, hmax⟩ := boundedInt_ok_iff.mp ⟨n, h⟩
    exact ⟨port, orRaise_ok_iff.mp hport, hmin, hmax⟩
  · rintro ⟨port, hport, hmin, hmax⟩
    refine ⟨port.getD 80, ?_⟩
    rw [hport, orRaise_some, ok_bind]
    exact boundedInt_ok hmin hmax

end SrxProbe.Generators
