import SrxProbe.Generators.TargetUrl

/-!
# A crawl and its endpoint

`target_url` puts a URL together from a target, a port and a path, and `validate_url`
and `crawl_page` take it apart again. What they find is what was put in, unless the
target is an IPv6 address with a closing bracket in its zone: then the rest of the
zone is read as the port, the path and the query.
-/

namespace SrxProbe.Generators

open SrxProbe.Lib

/-! ## The endpoint -/

/-- A port as the argument of `target_url`. -/
def portValue : Option Int → PyValue
  | none => .none
  | some port => .int port

/-- What `crawl_page` requests of the host. -/
def requestPath (u : SplitResult) : PyStr :=
  (if u.path = [] then "/".toList else u.path) ++ (if u.query = [] then [] else '?' :: u.query)

/-- A hostname denotes a target: it is read as the same address, or it is the same name
up to case. -/
def Denotes (hostname target : PyStr) : Prop :=
  match ipAddress target with
  | some address => ipAddress hostname = some address
  | none => hostname = lower target

/-- A URL that is read as the endpoint it was made for. -/
structure StaysOn (target path scheme : PyStr) (port : Option Int) (u : SplitResult) : Prop where
  scheme : u.scheme = scheme
  host : Denotes u.hostname target
  port : u.port = some port
  noUser : u.username = none ∧ u.password = none
  path : requestPath u = path ∨ requestPath u ++ "?".toList = path
  noFragment : u.fragment = []

/-- An IPv6 address with a closing bracket in its zone. -/
def HasBracketZone (target : PyStr) : Prop :=
  ∃ ip zone, ipAddress target = some (.v6 ip (some zone)) ∧ ']' ∈ zone

/-! ## Hostnames -/

/-- Lower case adds letters only. -/
theorem mem_of_mem_lower {s : PyStr} {c : Char} (hc : inRange 'a' 'z' c = false)
    (h : c ∈ lower s) : c ∈ s := by
  rcases SplitResult.mem_lower h with h | ⟨d, hd, rfl⟩
  · exact h
  · rw [isLower_lower hd] at hc
    cases hc

theorem bracket_notMem_hostname {u : SplitResult} (h : checkBrackets u.netloc = true)
    (huser : '@' ∉ u.netloc) : ']' ∉ u.hostname := by
  have hno := SplitResult.bracket_notMem_hostPort h huser
  intro hmem
  rcases List.mem_append.mp hmem with hmem | hmem
  · exact hno (List.takeWhile_subset _ (mem_of_mem_lower (by decide) hmem))
  · exact hno (List.dropWhile_subset _ hmem)

/-- A hostname does not denote an address whose zone has a closing bracket. -/
theorem not_denotes_bracket {u : SplitResult} {target : PyStr} (h : checkBrackets u.netloc = true)
    (huser : '@' ∉ u.netloc) (hzone : HasBracketZone target) : ¬ Denotes u.hostname target := by
  obtain ⟨ip, zone, hip, hbracket⟩ := hzone
  intro hdenotes
  unfold Denotes at hdenotes
  rw [hip] at hdenotes
  have hsuffix := (IpAddress.isScope_of_ipAddress hdenotes zone rfl).2
  exact bracket_notMem_hostname h huser (hsuffix.subset hbracket)

/-! ## What is accepted -/

/-- What `validate_url` has checked of a URL. -/
structure Accepted (url : PyStr) (u : SplitResult) : Prop where
  split : urlsplit url = some u
  printable : ∀ c ∈ url, isPrintable c = true
  noUser : '@' ∉ u.netloc

theorem accepted_of_validateUrl {url : PyStr} {u : SplitResult} (h : validateUrl url = .ok u) :
    Accepted url u := by
  unfold validateUrl at h
  obtain ⟨_, hform, h⟩ := bind_ok_iff.mp h
  obtain ⟨parsed, hsplit, h⟩ := bind_ok_iff.mp h
  obtain ⟨_, hrequired, h⟩ := bind_ok_iff.mp h
  obtain ⟨_, -, h⟩ := bind_ok_iff.mp h
  obtain ⟨_, -, h⟩ := bind_ok_iff.mp h
  obtain ⟨_, -, h⟩ := bind_ok_iff.mp h
  obtain ⟨_, -, h⟩ := bind_ok_iff.mp h
  cases h
  have hform := raiseIf_ok_iff.mp hform
  have hrequired := raiseIf_ok_iff.mp hrequired
  simp only [not_or] at hform hrequired
  refine ⟨orRaise_ok_iff.mp hsplit, ?_, ?_⟩
  · exact List.all_eq_true.mp (Bool.not_eq_false _ ▸ hform.2.1)
  · intro huser
    exact hrequired.2.2.1 (by rw [SplitResult.username, if_pos huser]; exact Option.some_ne_none _)

/-- What `target_url` has put together, and that it was accepted. -/
theorem of_targetUrl {target path scheme url : PyStr} {port : PyValue}
    (h : targetUrl target path scheme port = .ok url) :
    IsPath path ∧ ∃ host suffix u, targetHost target = .ok host ∧ portSuffix port = .ok suffix ∧
      url = scheme ++ "://".toList ++ host ++ suffix ++ path ∧ Accepted url u := by
  unfold targetUrl at h
  obtain ⟨_, hpath, h⟩ := bind_ok_iff.mp h
  obtain ⟨_, -, h⟩ := bind_ok_iff.mp h
  obtain ⟨host, hhost, h⟩ := bind_ok_iff.mp h
  obtain ⟨suffix, hsuffix, h⟩ := bind_ok_iff.mp h
  obtain ⟨u, hu, h⟩ := bind_ok_iff.mp h
  cases h
  exact ⟨validatePath_ok_iff.mp hpath, host, suffix, u, hhost, hsuffix, rfl,
    accepted_of_validateUrl hu⟩

/-! ## Ports -/

theorem portSuffix_ok {port : Option Int} {suffix : PyStr}
    (h : portSuffix (portValue port) = .ok suffix) :
    (port = none ∧ suffix = []) ∨
      ∃ n, port = some n ∧ 1 ≤ n ∧ n ≤ 65535 ∧ suffix = ':' :: intText n := by
  cases port with
  | none =>
      cases h
      exact .inl ⟨rfl, rfl⟩
  | some n =>
      unfold portSuffix portValue at h
      simp only at h
      split at h
      · rename_i hrange
        cases h
        exact .inr ⟨n, rfl, hrange.1, hrange.2, rfl⟩
      · cases h

section port

variable {port : Option Int} {suffix : PyStr}

theorem plain_suffix (h : portSuffix (portValue port) = .ok suffix) :
    ∀ c ∈ suffix, isPlain c = true := by
  rcases portSuffix_ok h with ⟨-, rfl⟩ | ⟨n, -, hmin, hmax, rfl⟩
  · intro c hc
    cases hc
  · exact cons_plain fun c hc => isPlain_of_isAsciiDigit ((port_text hmin hmax).1 c hc)

/-- The colon of a suffix is the first one behind a host without colons. -/
theorem split_suffix (h : portSuffix (portValue port) = .ok suffix) {host : PyStr}
    (hcolon : ':' ∉ host) :
    before ':' (host ++ suffix) = host ∧ after ':' (host ++ suffix) = after ':' suffix := by
  rcases portSuffix_ok h with ⟨-, rfl⟩ | ⟨n, -, -, -, rfl⟩
  · rw [List.append_nil, before_of_notMem hcolon, after_of_notMem hcolon]
    exact ⟨rfl, rfl⟩
  · rw [before_append hcolon, after_append hcolon]
    exact ⟨rfl, (after_cons ':' _).symm⟩

theorem port_of_suffix (h : portSuffix (portValue port) = .ok suffix) {u : SplitResult}
    (hu : u.hostPort.2 = after ':' suffix) : u.port = some port := by
  rcases portSuffix_ok h with ⟨rfl, rfl⟩ | ⟨n, rfl, hmin, hmax, rfl⟩
  · unfold SplitResult.port
    rw [hu]
    rfl
  · rw [after_cons] at hu
    exact port_of_hostPort hmin hmax hu

end port

/-! ## Paths -/

/-- Splitting a path at its question mark loses an empty query at most. -/
theorem requestPath_eq {path : PyStr} (h : IsPath path) {u : SplitResult}
    (hpath : u.path = before '?' path) (hquery : u.query = after '?' path) :
    requestPath u = path ∨ requestPath u ++ "?".toList = path := by
  apply h.rejoin_eq
  rw [requestPath, hpath, hquery]

/-! ## Network locations -/

section netloc

variable {scheme host suffix path : PyStr} {u : SplitResult}

theorem url_eq (scheme host suffix path : PyStr) :
    scheme ++ "://".toList ++ host ++ suffix ++ path =
      scheme ++ ':' :: '/' :: '/' :: (host ++ suffix ++ path) := by
  simp

theorem accepted_printable (h : Accepted (scheme ++ "://".toList ++ host ++ suffix ++ path) u) :
    ∀ c ∈ '/' :: '/' :: (host ++ suffix ++ path), 32 < c.toNat := by
  intro c hc
  apply lt_of_isPrintable
  apply h.printable
  rw [url_eq]
  exact List.mem_append_right _ (List.mem_cons_of_mem _ hc)

/-- An undelimited host and its port are the network location. -/
theorem parts_of_accepted (hscheme : scheme ∈ httpSchemes) (hpath : IsPath path)
    (h : Accepted (scheme ++ "://".toList ++ host ++ suffix ++ path) u)
    (hhost : ∀ c ∈ host ++ suffix, isDelimiter c = false) :
    u = ⟨scheme, host ++ suffix, before '?' path, after '?' path, []⟩ := by
  have hsplit := h.split
  rw [url_eq, urlsplit_scheme hscheme (accepted_printable h),
    splitNetloc_slashes hhost hpath.slash] at hsplit
  simp only [before_of_notMem hpath.noFragment, after_of_notMem hpath.noFragment] at hsplit
  split at hsplit
  · exact (Option.some.inj hsplit).symm
  · cases hsplit

/-- What stands in brackets is undelimited, if it has no closing bracket itself. -/
theorem undelimited_of_accepted (hscheme : scheme ∈ httpSchemes)
    (h : Accepted (scheme ++ "://".toList ++ ('[' :: (host ++ "]".toList)) ++ suffix ++ path) u)
    (hclose : ']' ∉ host) : ∀ c ∈ host, isDelimiter c = false := by
  by_contra hno
  have hdelimited : ¬ ∀ c ∈ host, (!isDelimiter c) = true := by
    intro hall
    exact hno fun c hc => by simpa using hall c hc
  have hsplit := h.split
  rw [url_eq, urlsplit_scheme hscheme (accepted_printable h)] at hsplit
  have hnetloc : (splitNetloc ('/' :: '/' :: ('[' :: (host ++ "]".toList) ++ suffix ++ path))).1 =
      '[' :: host.takeWhile (!isDelimiter ·) := by
    show ('[' :: (host ++ "]".toList) ++ suffix ++ path).takeWhile (!isDelimiter ·) = _
    rw [List.append_assoc, List.cons_append, List.takeWhile_cons_of_pos (by decide),
      List.append_assoc, List.takeWhile_append, if_neg]
    intro hlen
    have heq := (List.takeWhile_prefix (!isDelimiter ·)).eq_of_length hlen
    exact hdelimited (List.takeWhile_eq_self_iff.mp heq)
  have hcheck : checkBrackets ('[' :: host.takeWhile (!isDelimiter ·)) = false := by
    have hnoclose : ']' ∉ '[' :: host.takeWhile (!isDelimiter ·) := by
      intro hmem
      rcases List.mem_cons.mp hmem with hmem | hmem
      · exact absurd hmem (by decide)
      · exact hclose (List.takeWhile_subset _ hmem)
    unfold checkBrackets
    rw [if_neg fun hboth => hnoclose hboth.2]
    simp
  rw [hnetloc, hcheck] at hsplit
  cases hsplit

/-- A host that is found again, with its port and its path. -/
theorem staysOn_of_parts {target name : PyStr} {port : Option Int} (hpath : IsPath path)
    (hsuffix : portSuffix (portValue port) = .ok suffix)
    (hparts : u = ⟨scheme, host ++ suffix, before '?' path, after '?' path, []⟩)
    (huser : '@' ∉ u.netloc) (hpair : u.hostPort = (name, after ':' suffix))
    (hdenotes : Denotes u.hostname target) : StaysOn target path scheme port u := by
  have hscheme := congrArg SplitResult.scheme hparts
  have hfragment := congrArg SplitResult.fragment hparts
  have hpathPart := congrArg SplitResult.path hparts
  have hquery := congrArg SplitResult.query hparts
  exact ⟨hscheme, hdenotes, port_of_suffix hsuffix (congrArg Prod.snd hpair),
    ⟨SplitResult.username_of_noUser huser, SplitResult.password_of_noUser huser⟩,
    requestPath_eq hpath hpathPart hquery, hfragment⟩

/-- A hostname, or an IPv4 address, is found again. -/
theorem staysOn_of_hostname {target : PyStr} {port : Option Int} (hscheme : scheme ∈ httpSchemes)
    (hpath : IsPath path) (hsuffix : portSuffix (portValue port) = .ok suffix)
    (h : Accepted (scheme ++ "://".toList ++ host ++ suffix ++ path) u)
    (hhost : isHostname host = true) (hdenotes : Denotes (lower host) target) :
    StaysOn target path scheme port u := by
  obtain ⟨-, -, hchars⟩ := isHostChar_of_isHostname hhost
  have hplain : ∀ c ∈ host ++ suffix, isPlain c = true := by
    intro c hc
    rcases List.mem_append.mp hc with hc | hc
    · exact isPlain_of_isHostChar (hchars c hc)
    · exact plain_suffix hsuffix c hc
  have hparts := parts_of_accepted hscheme hpath h fun c hc => isDelimiter_of_isPlain (hplain c hc)
  have hnetloc := congrArg SplitResult.netloc hparts
  obtain ⟨hbefore, hafter⟩ := split_suffix hsuffix
    (fun hc => absurd (hchars ':' hc) (by decide) : ':' ∉ host)
  have hpair : u.hostPort = (host, after ':' suffix) := by
    rw [SplitResult.hostPort_plain h.noUser
      (hnetloc ▸ notMem_of_isPlain hplain (by decide) : '[' ∉ u.netloc), hnetloc, hbefore, hafter]
  apply staysOn_of_parts hpath hsuffix hparts h.noUser hpair
  have hzone : '%' ∉ u.hostPort.1 := by
    rw [hpair]
    exact fun hc => absurd (hchars '%' hc) (by decide)
  rw [SplitResult.hostname_of_noZone hzone, hpair]
  exact hdenotes

/-- An IPv6 address is found again, if its zone does not close the brackets. -/
theorem staysOn_of_v6 {target : PyStr} {port : Option Int} {ip : Nat} {zone : Option PyStr}
    (hscheme : scheme ∈ httpSchemes) (hpath : IsPath path)
    (hsuffix : portSuffix (portValue port) = .ok suffix)
    (h : Accepted (scheme ++ "://".toList ++
      ('[' :: (IpAddress.str (.v6 ip zone) ++ "]".toList)) ++ suffix ++ path) u)
    (hip : ipAddress target = some (.v6 ip zone)) (hzone : ∀ z ∈ zone, ']' ∉ z) :
    StaysOn target path scheme port u := by
  have hclose : ']' ∉ IpAddress.str (.v6 ip zone) := by
    intro hmem
    rw [IpAddress.str_v6] at hmem
    rcases List.mem_append.mp hmem with hmem | hmem
    · exact absurd (IpAddress.isAddressChar_of_mem_numberText hmem) (by decide)
    · cases zone with
      | none => cases hmem
      | some z =>
          rcases List.mem_cons.mp hmem with hmem | hmem
          · exact absurd hmem (by decide)
          · exact hzone z rfl hmem
  have hinside := undelimited_of_accepted hscheme h hclose
  have hhost : ∀ c ∈ '[' :: (IpAddress.str (.v6 ip zone) ++ "]".toList) ++ suffix,
      isDelimiter c = false := by
    intro c hc
    rcases List.mem_append.mp hc with hc | hc
    · rcases List.mem_cons.mp hc with rfl | hc
      · decide
      · rcases List.mem_append.mp hc with hc | hc
        · exact hinside c hc
        · obtain rfl := List.mem_singleton.mp hc
          decide
    · exact isDelimiter_of_isPlain (plain_suffix hsuffix c hc)
  have hparts := parts_of_accepted hscheme hpath h hhost
  have hnetloc : u.netloc = '[' :: (IpAddress.str (.v6 ip zone) ++ ']' :: suffix) := by
    rw [congrArg SplitResult.netloc hparts]
    simp
  have hpair := SplitResult.hostPort_brackets h.noUser hnetloc hclose
  apply staysOn_of_parts hpath hsuffix hparts h.noUser hpair
  have hname : u.hostname = IpAddress.str (.v6 ip zone) := by
    unfold SplitResult.hostname
    rw [hpair]
    exact lower_str_v6 ip zone
  unfold Denotes
  rw [hname, hip]
  exact IpAddress.ipAddress_str hip

end netloc

/-! ## The round trip -/

/-- An IPv4 address is printed in digits and dots, which have no lower case. -/
theorem lower_str_v4 (ip : Nat) : lower (IpAddress.str (.v4 ip)) = IpAddress.str (.v4 ip) := by
  obtain ⟨d, rest, hstr, hd, hrest, -⟩ := IpAddress.str_v4_eq_cons ip
  have hdigit : ∀ c, IpAddress.isAsciiDigit c = true → ¬ inRange 'A' 'Z' c = true := by
    intro c hc
    apply not_upper_of_isAddressChar
    unfold IpAddress.isAddressChar
    rw [show inRange '0' '9' c = true from hc, Bool.or_true, Bool.true_or]
  apply lower_of_noUpper
  rw [hstr]
  intro c hc
  rcases List.mem_cons.mp hc with rfl | hc
  · exact hdigit c hd
  · rcases hrest c hc with rfl | hc
    · decide
    · exact hdigit c hc

/-- **A URL is read as the endpoint it was made for, exactly when the target is not an
IPv6 address with a closing bracket in its zone.** -/
theorem staysOn_iff {target path scheme url : PyStr} {port : Option Int}
    (hscheme : scheme ∈ httpSchemes) (h : targetUrl target path scheme (portValue port) = .ok url) :
    (∃ u, urlsplit url = some u ∧ StaysOn target path scheme port u) ↔ ¬ HasBracketZone target := by
  obtain ⟨hpath, host, suffix, u, hhost, hsuffix, rfl, hacc⟩ := of_targetUrl h
  constructor
  · rintro ⟨u', hsplit, hstays⟩ hzone
    obtain rfl := Option.some.inj (hacc.split.symm.trans hsplit)
    exact not_denotes_bracket (checkBrackets_of_urlsplit hsplit) hacc.noUser hzone hstays.host
  · intro hzone
    refine ⟨u, hacc.split, ?_⟩
    unfold targetHost at hhost
    split at hhost
    · rename_i ip zone hip
      cases hhost
      refine staysOn_of_v6 hscheme hpath hsuffix hacc hip ?_
      rintro z rfl hbracket
      exact hzone ⟨ip, z, hip, hbracket⟩
    · rename_i ip hip
      cases hhost
      refine staysOn_of_hostname hscheme hpath hsuffix hacc (isHostname_str_v4 ip) ?_
      unfold Denotes
      rw [hip, lower_str_v4]
      exact IpAddress.ipAddress_str hip
    · rename_i hip
      split at hhost
      · rename_i hname
        cases hhost
        refine staysOn_of_hostname hscheme hpath hsuffix hacc hname ?_
        unfold Denotes
        rw [hip]
      · cases hhost

theorem staysOn_eth0 : ∃ u, urlsplit "http://[fe80::1%eth0]:80/a?".toList = some u ∧
    StaysOn "fe80:0::1%eth0".toList "/a?".toList "http".toList (some 80) u := by
  have hurl : targetUrl "fe80:0::1%eth0".toList "/a?".toList "http".toList (portValue (some 80)) =
      .ok "http://[fe80::1%eth0]:80/a?".toList := rfl
  have hread : ipAddress "fe80:0::1%eth0".toList =
      some (.v6 338288524927261089654018896841347694593 (some "eth0".toList)) := rfl
  refine (staysOn_iff (by decide) hurl).mpr ?_
  rintro ⟨ip, zone, hip, hbracket⟩
  rw [hread] at hip
  cases hip
  exact absurd hbracket (by decide)

/-- A zone that closes the brackets chooses the port and turns the path into a query. -/
theorem zone_changes_endpoint :
    targetUrl "fe80::1%a]:99?".toList "/".toList "http".toList (portValue (some 80)) =
        .ok "http://[fe80::1%a]:99?]:80/".toList ∧
      urlsplit "http://[fe80::1%a]:99?]:80/".toList =
        some ⟨"http".toList, "[fe80::1%a]:99".toList, [], "]:80/".toList, []⟩ ∧
      ¬ ∃ u, urlsplit "http://[fe80::1%a]:99?]:80/".toList = some u ∧
        StaysOn "fe80::1%a]:99?".toList "/".toList "http".toList (some 80) u := by
  refine ⟨rfl, rfl, ?_⟩
  rintro ⟨u, hsplit, hstays⟩
  have hport : (SplitResult.mk "http".toList "[fe80::1%a]:99".toList [] "]:80/".toList []).port =
      some (some 99) := rfl
  obtain rfl := Option.some.inj ((rfl : urlsplit _ = some _).symm.trans hsplit)
  have hclaimed := hport.symm.trans hstays.port
  exact absurd hclaimed (by decide)

end SrxProbe.Generators
