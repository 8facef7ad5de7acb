import SrxProbe.Generators.Endpoint

/-!
# Where a crawl connects to

The crawler hands the hostname and the port of its URL to `http.client`, which looks for a port
in the hostname when it is given none. The hostname of an IPv6 address is full of colons, and
without a port its last group is taken for one.
-/

namespace SrxProbe.Generators

open SrxProbe.Lib

/-! ## The connection -/

/-- `default_port` of the connection class of a scheme. -/
def defaultPort (scheme : PyStr) : Int := if scheme = "https".toList then 443 else 80

/-- A host without the brackets around it. -/
def unbracket (host : PyStr) : PyStr :=
  if host.head? = some '[' ∧ host.getLast? = some ']' then host.tail.dropLast else host

/-- `HTTPConnection(host, port)`: the host and the port of the connection, `none` where the host
does not end in a port. -/
def getHostport (default : Int) (host : PyStr) (port : Option Int) : Option (PyStr × Int) :=
  match port with
  | some port => some (unbracket host, port)
  | none =>
      -- the last colon comes behind the last bracket
      if ':' ∈ host.rtakeWhile (· ≠ ']') then
        let text := host.rtakeWhile (· ≠ ':')
        let host := unbracket (host.rdropWhile (· ≠ ':')).dropLast
        if text = [] then some (host, default) else (parseInt text).map (host, ·)
      else some (unbracket host, default)

/-- What `crawl_page` connects to for a URL it has accepted. -/
def crawlConnection (u : SplitResult) : Option (PyStr × Int) :=
  getHostport (defaultPort u.scheme) u.hostname u.port.join

/-- The host and the port that a URL names. -/
def endpointOf (u : SplitResult) : PyStr × Int :=
  (u.hostname, u.port.join.getD (defaultPort u.scheme))

/-- An IPv6 address. -/
def IsV6 (target : PyStr) : Prop := ∃ ip zone, ipAddress target = some (.v6 ip zone)

/-! ## Hostnames and colons -/

theorem rtakeWhile_of_notMem {s : PyStr} {c : Char} (h : c ∉ s) : s.rtakeWhile (· ≠ c) = s := by
  rw [List.rtakeWhile_eq_self_iff]
  intro d hd
  rw [decide_eq_true_eq]
  rintro rfl
  exact h hd

theorem unbracket_of_notMem {host : PyStr} (h : ']' ∉ host) : unbracket host = host := by
  unfold unbracket
  rw [if_neg]
  rintro ⟨-, hlast⟩
  exact h (List.mem_of_getLast? hlast)

/-- Without a port, a host is kept when there is no colon in it. -/
theorem getHostport_none_iff {default : Int} {host : PyStr} (h : ']' ∉ host) :
    getHostport default host none = some (host, default) ↔ ':' ∉ host := by
  unfold getHostport
  simp only
  rw [rtakeWhile_of_notMem h]
  split
  · rename_i hcolon
    -- what is in front of a colon is shorter
    have hshort : (unbracket (host.rdropWhile (· ≠ ':')).dropLast).length < host.length := by
      have hne : host.rdropWhile (· ≠ ':') ≠ [] := by
        intro hnil
        rw [List.rdropWhile_eq_nil_iff] at hnil
        simpa using hnil ':' hcolon
      have hprefix := (List.rdropWhile_prefix (p := fun c : Char => c ≠ ':') (l := host)).length_le
      have hpos := List.length_pos_of_ne_nil hne
      have hunbracket : ∀ s : PyStr, (unbracket s).length ≤ s.length := by
        intro s
        unfold unbracket
        split
        · rw [List.length_dropLast, List.length_tail]
          omega
        · exact Nat.le_refl _
      have hdrop := hunbracket (host.rdropWhile (· ≠ ':')).dropLast
      rw [List.length_dropLast] at hdrop
      omega
    have hno : ∀ n, ¬ some (unbracket (host.rdropWhile (· ≠ ':')).dropLast, n) =
        some (host, default) := by
      intro n heq
      have hhost := congrArg Prod.fst (Option.some.inj heq)
      rw [show unbracket (host.rdropWhile (· ≠ ':')).dropLast = host from hhost] at hshort
      exact Nat.lt_irrefl _ hshort
    refine iff_of_false ?_ (not_not_intro hcolon)
    split
    · exact hno default
    · intro hsome
      obtain ⟨n, -, hn⟩ := Option.map_eq_some_iff.mp hsome
      exact hno n (congrArg some hn)
  · rename_i hcolon
    rw [unbracket_of_notMem h]
    exact iff_of_true rfl hcolon

theorem colon_mem_lower_iff {s : PyStr} : ':' ∈ lower s ↔ ':' ∈ s := by
  constructor
  · exact mem_of_mem_lower (by decide)
  · intro h
    exact List.mem_map.mpr ⟨':', h, by rw [if_neg (by decide)]⟩

theorem colon_mem_hostname_iff {u : SplitResult} : ':' ∈ u.hostname ↔ ':' ∈ u.hostPort.1 := by
  unfold SplitResult.hostname
  simp only
  rw [List.mem_append, colon_mem_lower_iff, ← List.mem_append, List.takeWhile_append_dropWhile]

section target

variable {scheme host suffix path : PyStr} {u : SplitResult}

/-- What stands in brackets is the hostname up to the first bracket that closes. -/
theorem hostPort_of_bracketed {inner : PyStr} (rest : PyStr) (hscheme : scheme ∈ httpSchemes)
    (h : Accepted (scheme ++ "://".toList ++ ('[' :: (inner ++ "]".toList)) ++ rest ++ path) u)
    (hinner : ']' ∉ inner) : u.hostPort.1 = inner := by
  have hinside := undelimited_of_accepted hscheme h hinner
  have hsplit := h.split
  rw [url_eq, urlsplit_scheme hscheme (accepted_printable h)] at hsplit
  have hnetloc : (splitNetloc ('/' :: '/' :: ('[' :: (inner ++ "]".toList) ++ rest ++ path))).1 =
      '[' :: (inner ++ ']' :: (rest ++ path).takeWhile (!isDelimiter ·)) := by
    show ('[' :: (inner ++ "]".toList) ++ rest ++ path).takeWhile (!isDelimiter ·) = _
    rw [List.append_assoc, List.cons_append, List.takeWhile_cons_of_pos (by decide),
      List.append_assoc, List.takeWhile_append_of_pos (fun c hc => by rw [hinside c hc]; rfl)]
    show '[' :: (inner ++ (']' :: (rest ++ path)).takeWhile (!isDelimiter ·)) = _
    rw [List.takeWhile_cons_of_pos (by decide)]
  split at hsplit
  · have hu := Option.some.inj hsplit
    have hloc : u.netloc = '[' :: (inner ++ ']' :: (rest ++ path).takeWhile (!isDelimiter ·)) := by
      rw [← hnetloc, ← hu]
    rw [SplitResult.hostPort_brackets h.noUser hloc hinner]
  · cases hsplit

/-- The hostname of an IPv6 target has a colon. -/
theorem colon_mem_of_v6 {ip : Nat} {zone : Option PyStr} (hscheme : scheme ∈ httpSchemes)
    (h : Accepted (scheme ++ "://".toList ++
      ('[' :: (IpAddress.str (.v6 ip zone) ++ "]".toList)) ++ suffix ++ path) u) :
    ':' ∈ u.hostname := by
  rw [colon_mem_hostname_iff]
  -- the address up to the bracket that its zone may have
  have hsplit : IpAddress.str (.v6 ip zone) =
      before ']' (IpAddress.str (.v6 ip zone)) ++
        (IpAddress.str (.v6 ip zone)).dropWhile (· ≠ ']') :=
    List.takeWhile_append_dropWhile.symm
  have hcolon : ':' ∈ before ']' (IpAddress.str (.v6 ip zone)) := by
    unfold before
    rw [IpAddress.str_v6, List.takeWhile_append_of_pos]
    · exact List.mem_append_left _ (IpAddress.colon_mem_numberText ip)
    · intro c hc
      rw [decide_eq_true_eq]
      rintro rfl
      exact absurd (IpAddress.isAddressChar_of_mem_numberText hc) (by decide)
  have hclose : ']' ∉ before ']' (IpAddress.str (.v6 ip zone)) := SplitResult.notMem_before _ _
  cases hrest : (IpAddress.str (.v6 ip zone)).dropWhile (· ≠ ']') with
  | nil =>
      rw [hrest, List.append_nil] at hsplit
      rw [hsplit] at h
      rw [hostPort_of_bracketed _ hscheme h hclose]
      exact hcolon
  | cons c rest =>
      have hc : c = ']' := by
        have hhead := List.head?_dropWhile_not (fun d : Char => d ≠ ']')
          (IpAddress.str (.v6 ip zone))
        rw [hrest] at hhead
        simpa using hhead
      subst hc
      rw [hsplit, hrest] at h
      rw [hostPort_of_bracketed (rest ++ "]".toList ++ suffix) hscheme (by simpa using h) hclose]
      exact hcolon

/-- The hostname of another target has none. -/
theorem colon_notMem_of_hostname {port : Option Int} (hscheme : scheme ∈ httpSchemes)
    (hpath : IsPath path) (hsuffix : portSuffix (portValue port) = .ok suffix)
    (h : Accepted (scheme ++ "://".toList ++ host ++ suffix ++ path) u)
    (hhost : isHostname host = true) : ':' ∉ u.hostname := by
  obtain ⟨-, -, hchars⟩ := isHostChar_of_isHostname hhost
  have hcolon : ':' ∉ host := fun hc => absurd (hchars ':' hc) (by decide)
  have hplain : ∀ c ∈ host ++ suffix, isPlain c = true := by
    intro c hc
    rcases List.mem_append.mp hc with hc | hc
    · exact isPlain_of_isHostChar (hchars c hc)
    · exact plain_suffix hsuffix c hc
  have hparts := parts_of_accepted hscheme hpath h fun c hc => isDelimiter_of_isPlain (hplain c hc)
  have hnetloc := congrArg SplitResult.netloc hparts
  have hbracket : '[' ∉ u.netloc := hnetloc ▸ notMem_of_isPlain hplain (by decide)
  rw [colon_mem_hostname_iff, SplitResult.hostPort_plain h.noUser hbracket]
  exact SplitResult.notMem_before ':' _

/-- The hostname of a URL made for a target has a colon when the target is an IPv6 address. -/
theorem colon_mem_iff {target url : PyStr} {port : Option Int} (hscheme : scheme ∈ httpSchemes)
    (h : targetUrl target path scheme (portValue port) = .ok url) :
    ∃ u, validateUrl url = .ok u ∧ ']' ∉ u.hostname ∧ (':' ∈ u.hostname ↔ IsV6 target) := by
  obtain ⟨u, hu⟩ : ∃ u, validateUrl url = .ok u := by
    unfold targetUrl at h
    obtain ⟨-, h⟩ := seq_ok_iff.mp h
    obtain ⟨-, h⟩ := seq_ok_iff.mp h
    obtain ⟨host, -, h⟩ := bind_ok_iff.mp h
    obtain ⟨suffix, -, h⟩ := bind_ok_iff.mp h
    obtain ⟨u, hu, h⟩ := bind_ok_iff.mp h
    cases h
    exact ⟨u, hu⟩
  have hacc := accepted_of_validateUrl hu
  have hclose := bracket_notMem_hostname (checkBrackets_of_urlsplit hacc.split) hacc.noUser
  refine ⟨u, hu, hclose, ?_⟩
  obtain ⟨hpath, host, suffix, -, hhost, hsuffix, rfl, -⟩ := of_targetUrl h
  unfold targetHost at hhost
  split at hhost
  · rename_i ip zone hip
    cases hhost
    exact iff_of_true (colon_mem_of_v6 hscheme hacc) ⟨ip, zone, hip⟩
  · rename_i ip hip
    cases hhost
    refine iff_of_false (colon_notMem_of_hostname hscheme hpath hsuffix hacc
      (isHostname_str_v4 ip)) ?_
    rintro ⟨ip', zone, hip'⟩
    cases hip.symm.trans hip'
  · rename_i hip
    split at hhost
    · rename_i hname
      cases hhost
      refine iff_of_false (colon_notMem_of_hostname hscheme hpath hsuffix hacc hname) ?_
      rintro ⟨ip, zone, hip'⟩
      cases hip.symm.trans hip'
    · cases hhost

end target

/-- **A crawl connects to the host and the port of its URL exactly when the URL has a port or the
target is no IPv6 address.** -/
theorem crawl_connects_iff {target path scheme url : PyStr} {port : Option Int}
    (hscheme : scheme ∈ httpSchemes) (h : targetUrl target path scheme (portValue port) = .ok url) :
    ∃ u, validateUrl url = .ok u ∧
      (crawlConnection u = some (endpointOf u) ↔ u.port.join.isSome = true ∨ ¬ IsV6 target) := by
  obtain ⟨u, hu, hclose, hcolon⟩ := colon_mem_iff hscheme h
  refine ⟨u, hu, ?_⟩
  unfold crawlConnection endpointOf
  cases hport : u.port.join with
  | some n =>
      refine iff_of_true ?_ (.inl rfl)
      unfold getHostport
      rw [unbracket_of_notMem hclose]
      rfl
  | none =>
      rw [Option.getD_none, getHostport_none_iff hclose, hcolon]
      simp

/-- Without a port, the last group of the address is the port of the connection. -/
theorem crawl_connects_iff_v6 :
    targetUrl "2001:db8::1:80".toList "/".toList "http".toList (portValue none) =
        .ok "http://[2001:db8::1:80]/".toList ∧
      ∃ u, validateUrl "http://[2001:db8::1:80]/".toList = .ok u ∧
        crawlConnection u = some ("2001:db8::1".toList, 80) ∧
        (crawlConnection u = some (endpointOf u) ↔
          u.port.join.isSome = true ∨ ¬ IsV6 "2001:db8::1:80".toList) := by
  have hurl : targetUrl "2001:db8::1:80".toList "/".toList "http".toList (portValue none) =
      .ok "http://[2001:db8::1:80]/".toList := rfl
  have hsplit : validateUrl "http://[2001:db8::1:80]/".toList =
      .ok ⟨"http".toList, "[2001:db8::1:80]".toList, "/".toList, [], []⟩ := rfl
  obtain ⟨u, hu, hiff⟩ := crawl_connects_iff (by decide) hurl
  obtain rfl := Except.ok.inj (hsplit.symm.trans hu)
  exact ⟨hurl, _, hsplit, by decide, hiff⟩

end SrxProbe.Generators
