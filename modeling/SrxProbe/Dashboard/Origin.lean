import SrxProbe.Dashboard.Request
import SrxProbe.Lib.Http
import SrxProbe.Lib.JsonValue

/-!
# The boundary of the dashboard

Which requests the dashboard answers at all. Each has the host of an origin that the
operator allowed, and one that changes anything comes from that very origin. Off the
loopback interface there is one origin, and it is an HTTPS one.
-/

namespace SrxProbe.Dashboard

open SrxProbe.Lib SrxProbe.Lib.Http

/-! ## Configuration -/

/-- The settings of the server: `BIND`, `PORT`, `PUBLIC_ORIGIN` and `TRUST_PROXY`. -/
structure ServerConfig where
  bind : PyStr
  port : Int
  publicOrigin : PyStr
  trustProxy : Bool
  deriving DecidableEq, Repr

/-- `address.is_loopback`. Newer versions of `ipaddress` look into an IPv6 address that an
IPv4 address is mapped to, which `looksInside` tells. -/
def isLoopback (looksInside : Bool) : IpAddress → Bool
  | .v4 ip => ip / 2 ^ 24 = 127
  | .v6 ip _ =>
      if looksInside && ip / 2 ^ 32 = 0xFFFF then ip % 2 ^ 32 / 2 ^ 24 = 127 else ip = 1

/-- `http://host:port`. -/
def localOrigin (host : String) (port : Int) : PyStr :=
  "http".toList ++ "://".toList ++ (host.toList ++ ':' :: intText port)

/-- The text of an uncaught `ValueError`. -/
def boundaryError : PyErr :=
  .valueError ("nonloopback bind requires authenticated proxy boundary: " ++
    "SRX_DASH_TRUST_PROXY=1 and SRX_DASH_PUBLIC_ORIGIN").toList

def exactError : PyErr :=
  .valueError "SRX_DASH_PUBLIC_ORIGIN must be an exact HTTP(S) origin".toList

def httpsError : PyErr := .valueError "network proxy origin must use HTTPS".toList

section

variable (nfkcSafe : PyStr → Bool) (looksInside : Bool)

/-- The checks on `PUBLIC_ORIGIN`: nothing but a scheme and a network location. -/
def isExactOrigin (origin : PyStr) (u : ParseResult) : Bool :=
  u.scheme ∈ httpSchemes && u.hostname ≠ [] && u.path = [] && u.query = [] &&
    u.fragment = [] && u.username.getD [] = [] && u.password.getD [] = [] &&
    origin = u.scheme ++ "://".toList ++ u.netloc

/-- `allowed_origins`. -/
def allowedOrigins (config : ServerConfig) : Except PyErr (List PyStr) := do
  let address ← orRaise (ipAddress config.bind) .stdValueError
  let loopback := isLoopback looksInside address
  raiseIf (loopback = false ∧ ¬ (config.trustProxy = true ∧ config.publicOrigin ≠ []))
    boundaryError
  if config.publicOrigin ≠ [] then
    let parsed ← orRaise (urlparse nfkcSafe config.publicOrigin) .stdValueError
    raiseIf (isExactOrigin config.publicOrigin parsed = false) exactError
    raiseIf (loopback = false ∧ parsed.scheme ≠ "https".toList) httpsError
    .ok [config.publicOrigin]
  else
    .ok [localOrigin "127.0.0.1" config.port, localOrigin "localhost" config.port,
      localOrigin "[::1]" config.port]

/-! ## Replies -/

/-- A reply of the server: the status, the body before it is encoded, and its type. -/
structure Reply where
  code : Nat
  body : PyStr
  ctype : PyStr
  deriving DecidableEq, Repr

/-- `self._send(code, json.dumps(value), "application/json")`. -/
def jsonReply (code : Nat) (value : PyValue) : Reply :=
  ⟨code, Json.dumps value, "application/json".toList⟩

/-- `self._error(code, message)`. -/
def errorReply (code : Nat) (message : PyStr) : Reply :=
  jsonReply code (.dict [("error".toList, .str message)])

/-! ## Authorisation -/

/-- `urlparse(origin).netloc`. -/
def netlocOf (origin : PyStr) : Except PyErr PyStr :=
  (orRaise (urlparse nfkcSafe origin) .stdValueError).map fun u => u.netloc

/-- `_authorized`: `none` where the request may go on, else the reply. -/
def authorized (config : ServerConfig) (headers : Headers) (mutation : Bool) :
    Except PyErr (Option Reply) := do
  let origins ← allowedOrigins nfkcSafe looksInside config
  let hosts ← origins.mapM (netlocOf nfkcSafe)
  let host := getAll headers "Host"
  let origin := getAll headers "Origin"
  if host.length ≠ 1 ∨ (∃ h ∈ host.head?, h ∉ hosts) ∨ 1 < origin.length ∨
      (∃ o ∈ origin.head?, o ∉ origins) ∨ (mutation = true ∧ origin = []) ∨
      get? headers "Sec-Fetch-Site" = some "cross-site".toList then
    .ok (some (errorReply 403 "Host/Origin not allowed; same-origin requests required".toList))
  else
    match origin.head? with
    | none => .ok none
    | some o =>
        let netloc ← netlocOf nfkcSafe o
        if host.head? ≠ some netloc then
          .ok (some (errorReply 403 "Origin and Host must match".toList))
        else .ok none

/-! ## Origins -/

/-- An origin with its network location, which splitting finds. -/
structure IsOrigin (origin netloc : PyStr) : Prop where
  text : ∃ scheme ∈ httpSchemes, origin = scheme ++ "://".toList ++ netloc
  parsed : netlocOf nfkcSafe origin = .ok netloc

/-- A text is a scheme and a network location in one way. -/
theorem origin_inj {scheme scheme' netloc netloc' : PyStr} (hscheme : scheme ∈ httpSchemes)
    (hscheme' : scheme' ∈ httpSchemes)
    (h : scheme ++ "://".toList ++ netloc = scheme' ++ "://".toList ++ netloc') :
    scheme = scheme' ∧ netloc = netloc' := by
  simp only [httpSchemes, List.mem_cons, List.not_mem_nil, or_false] at hscheme hscheme'
  rcases hscheme with rfl | rfl <;> rcases hscheme' with rfl | rfl
  · exact ⟨rfl, List.append_cancel_left h⟩
  · simp at h
  · simp at h
  · exact ⟨rfl, List.append_cancel_left h⟩

section

variable {nfkcSafe} {origin scheme netloc netloc' : PyStr}

theorem IsOrigin.netloc_eq (h : IsOrigin nfkcSafe origin netloc) (hscheme : scheme ∈ httpSchemes)
    (horigin : origin = scheme ++ "://".toList ++ netloc') : netloc = netloc' := by
  obtain ⟨scheme', hscheme', htext⟩ := h.text
  exact (origin_inj hscheme' hscheme (htext.symm.trans horigin)).2

theorem IsOrigin.unique (h : IsOrigin nfkcSafe origin netloc)
    (h' : IsOrigin nfkcSafe origin netloc') : netloc = netloc' := by
  obtain ⟨scheme, hscheme, htext⟩ := h'.text
  exact h.netloc_eq hscheme htext

end

theorem isExactOrigin_iff {origin : PyStr} {u : ParseResult} :
    isExactOrigin origin u = true ↔ u.scheme ∈ httpSchemes ∧ u.hostname ≠ [] ∧ u.path = [] ∧
      u.query = [] ∧ u.fragment = [] ∧ u.username.getD [] = [] ∧ u.password.getD [] = [] ∧
      origin = u.scheme ++ "://".toList ++ u.netloc := by
  unfold isExactOrigin
  simp only [Bool.and_eq_true, decide_eq_true_eq, and_assoc]

/-- A character of a network location without brackets. -/
def isHostChar (c : Char) : Bool :=
  32 < c.toNat && isAscii c && !isDelimiter c && c ≠ '@' && c ≠ '[' && c ≠ ']'

theorem isHostChar_intText {n : Int} {c : Char} (h : c ∈ intText n) : isHostChar c = true := by
  have hdigits : ∀ d < 10, isHostChar (Nat.digitChar d) = true := by decide
  obtain ⟨sign, hsign, htext⟩ := intText_eq n
  rw [htext, List.mem_append] at h
  rcases h with h | h
  · rcases hsign with rfl | rfl
    · cases h
    · obtain rfl := List.mem_singleton.mp h
      decide
  · obtain ⟨d, hd, rfl⟩ := mem_toDigits (by decide) h
    exact hdigits d hd

theorem isNetloc_local {host : PyStr} (hhost : host ∈ ["127.0.0.1".toList, "localhost".toList,
    "[::1]".toList]) (port : Int) : IsNetloc (host ++ ':' :: intText port) := by
  have hport : ∀ c ∈ ':' :: intText port, isHostChar c = true := by
    intro c hc
    rcases List.mem_cons.mp hc with rfl | hc
    · decide
    · exact isHostChar_intText hc
  have hplain : ∀ c ∈ host ++ ':' :: intText port, 32 < c.toNat ∧ isAscii c = true ∧
      isDelimiter c = false ∧ c ≠ '@' := by
    have hhosts : ["127.0.0.1".toList, "localhost".toList, "[::1]".toList].all (fun host =>
        host.all fun c => 32 < c.toNat && isAscii c && !isDelimiter c && c ≠ '@') = true := by
      decide
    intro c hc
    rcases List.mem_append.mp hc with hc | hc
    · have hchar := List.all_eq_true.mp (List.all_eq_true.mp hhosts host hhost) c hc
      simp only [Bool.and_eq_true, decide_eq_true_eq, Bool.not_eq_true'] at hchar
      exact ⟨hchar.1.1.1, hchar.1.1.2, hchar.1.2, hchar.2⟩
    · have hchar := hport c hc
      simp only [isHostChar, Bool.and_eq_true, decide_eq_true_eq, Bool.not_eq_true'] at hchar
      exact ⟨hchar.1.1.1.1.1, hchar.1.1.1.1.2, hchar.1.1.1.2, hchar.1.1.2⟩
  have hbracket : ∀ c, isHostChar c = false → c ∉ ':' :: intText port := by
    intro c hc hmem
    rw [hport c hmem] at hc
    cases hc
  refine ⟨fun c hc => (hplain c hc).1, fun c hc => (hplain c hc).2.1,
    fun c hc => (hplain c hc).2.2.1, fun hc => (hplain '@' hc).2.2.2 rfl, ?_⟩
  have hnone : ∀ host : PyStr, '[' ∉ host → ']' ∉ host →
      checkBrackets (host ++ ':' :: intText port) = true := by
    intro host hopen hclose
    have hopen' : '[' ∉ host ++ ':' :: intText port := by
      rw [List.mem_append, not_or]
      exact ⟨hopen, hbracket '[' (by decide)⟩
    have hclose' : ']' ∉ host ++ ':' :: intText port := by
      rw [List.mem_append, not_or]
      exact ⟨hclose, hbracket ']' (by decide)⟩
    unfold checkBrackets
    rw [if_neg fun hboth => hopen' hboth.1]
    simp [hopen', hclose']
  simp only [List.mem_cons, List.not_mem_nil, or_false] at hhost
  rcases hhost with rfl | rfl | rfl
  · exact hnone _ (by decide) (by decide)
  · exact hnone _ (by decide) (by decide)
  · show (if _ then checkBracketedHost "::1".toList else _) = true
    rw [if_pos ⟨by simp, by simp⟩]
    decide

theorem isOrigin_local {host : String} (hhost : host.toList ∈ ["127.0.0.1".toList,
    "localhost".toList, "[::1]".toList]) (port : Int) :
    IsOrigin nfkcSafe (localOrigin host port) (host.toList ++ ':' :: intText port) where
  text := ⟨"http".toList, by decide, rfl⟩
  parsed := by
    unfold netlocOf localOrigin
    rw [urlparse_origin nfkcSafe (by decide) (isNetloc_local hhost port)]
    rfl

/-- What the operator has allowed: origins, and off the loopback interface one HTTPS origin
behind a proxy that is trusted. -/
structure Boundary (config : ServerConfig) (origins : List PyStr) : Prop where
  origin : ∀ o ∈ origins, ∃ netloc, IsOrigin nfkcSafe o netloc
  network : ∀ address, ipAddress config.bind = some address →
    isLoopback looksInside address = false → config.trustProxy = true ∧
      origins = [config.publicOrigin] ∧
      ∃ netloc, config.publicOrigin = "https".toList ++ "://".toList ++ netloc

theorem boundary_of_allowed {config : ServerConfig} {origins : List PyStr}
    (h : allowedOrigins nfkcSafe looksInside config = .ok origins) :
    Boundary nfkcSafe looksInside config origins := by
  unfold allowedOrigins at h
  obtain ⟨address, haddress, h⟩ := bind_ok_iff.mp h
  have haddress := orRaise_ok_iff.mp haddress
  obtain ⟨hproxy, h⟩ := seq_ok_iff.mp h
  have hproxy := raiseIf_ok_iff.mp hproxy
  split at h
  · rename_i hpublic
    obtain ⟨parsed, hparsed, h⟩ := bind_ok_iff.mp h
    obtain ⟨hexact, h⟩ := seq_ok_iff.mp h
    obtain ⟨hhttps, h⟩ := seq_ok_iff.mp h
    cases h
    have hexact := isExactOrigin_iff.mp (Bool.not_eq_false _ ▸ raiseIf_ok_iff.mp hexact)
    obtain ⟨hscheme, -, -, -, -, -, -, htext⟩ := hexact
    constructor
    · intro o ho
      obtain rfl := List.mem_singleton.mp ho
      refine ⟨parsed.netloc, ⟨parsed.scheme, hscheme, htext⟩, ?_⟩
      unfold netlocOf
      rw [hparsed]
      rfl
    · intro address' haddress' hnot
      obtain rfl := Option.some.inj (haddress.symm.trans haddress')
      have hscheme' : parsed.scheme = "https".toList := by
        by_contra hother
        exact raiseIf_ok_iff.mp hhttps ⟨hnot, hother⟩
      have htrust : config.trustProxy = true ∧ config.publicOrigin ≠ [] := by
        by_contra hother
        exact hproxy ⟨hnot, hother⟩
      exact ⟨htrust.1, rfl, parsed.netloc, hscheme' ▸ htext⟩
  · rename_i hpublic
    cases h
    constructor
    · intro o ho
      simp only [List.mem_cons, List.not_mem_nil, or_false] at ho
      rcases ho with rfl | rfl | rfl
      · exact ⟨_, isOrigin_local nfkcSafe (by decide) config.port⟩
      · exact ⟨_, isOrigin_local nfkcSafe (by decide) config.port⟩
      · exact ⟨_, isOrigin_local nfkcSafe (by decide) config.port⟩
    · intro address' haddress' hnot
      obtain rfl := Option.some.inj (haddress.symm.trans haddress')
      exact absurd ⟨hnot, fun htrust => hpublic htrust.2⟩ hproxy

/-! ## Requests that go on -/

/-- A request from a page of the origin it is sent to, or one that only reads and names no
origin. -/
def FromOrigin (origins : List PyStr) (headers : Headers) (mutation : Bool) : Prop :=
  ∃ scheme ∈ httpSchemes, ∃ netloc, scheme ++ "://".toList ++ netloc ∈ origins ∧
    getAll headers "Host" = [netloc] ∧
    (getAll headers "Origin" = [scheme ++ "://".toList ++ netloc] ∨
      mutation = false ∧ getAll headers "Origin" = []) ∧
    get? headers "Sec-Fetch-Site" ≠ some "cross-site".toList

theorem mapM_netlocOf {origins : List PyStr}
    (h : ∀ o ∈ origins, ∃ netloc, IsOrigin nfkcSafe o netloc) :
    ∃ hosts, origins.mapM (netlocOf nfkcSafe) = .ok hosts ∧
      ∀ host, host ∈ hosts ↔ ∃ o ∈ origins, IsOrigin nfkcSafe o host := by
  induction origins with
  | nil => exact ⟨[], rfl, by simp⟩
  | cons o origins ih =>
      obtain ⟨netloc, ho⟩ := h o List.mem_cons_self
      obtain ⟨hosts, hmap, hmem⟩ := ih fun o' ho' => h o' (List.mem_cons_of_mem o ho')
      refine ⟨netloc :: hosts, ?_, ?_⟩
      · rw [List.mapM_cons, ho.parsed, ok_bind, hmap]
        rfl
      · intro host
        simp only [List.mem_cons, hmem, exists_eq_or_imp]
        constructor
        · rintro (rfl | hhost)
          · exact .inl ho
          · exact .inr hhost
        · rintro (hhost | hhost)
          · exact .inl (hhost.unique ho)
          · exact .inr hhost

/-- What `_authorized` comes to: it never raises once the server has started. -/
theorem authorized_cases {config : ServerConfig} {origins : List PyStr}
    (h : allowedOrigins nfkcSafe looksInside config = .ok origins) (headers : Headers)
    (mutation : Bool) :
    (authorized nfkcSafe looksInside config headers mutation = .ok none ∧
      FromOrigin origins headers mutation) ∨
    (∃ reply, authorized nfkcSafe looksInside config headers mutation = .ok (some reply) ∧
      reply.code = 403 ∧ ¬ FromOrigin origins headers mutation) := by
  have hboundary := boundary_of_allowed nfkcSafe looksInside h
  obtain ⟨hosts, hmap, hhosts⟩ := mapM_netlocOf nfkcSafe hboundary.origin
  unfold authorized
  rw [h, ok_bind, hmap, ok_bind]
  dsimp only
  split
  · rename_i hrefused
    refine .inr ⟨_, rfl, rfl, ?_⟩
    rintro ⟨scheme, hscheme, netloc, horigin, hhost, hfrom, hsite⟩
    obtain ⟨netloc', ho⟩ := hboundary.origin _ horigin
    obtain rfl := ho.netloc_eq hscheme rfl
    have hknown : netloc' ∈ hosts := (hhosts netloc').mpr ⟨_, horigin, ho⟩
    rw [hhost] at hrefused
    rcases hrefused with hlen | ⟨host, hhead, hno⟩ | hmany | ⟨o, hhead, hno⟩ | ⟨hmutation, hnil⟩ |
      hcross
    · exact hlen rfl
    · exact hno (Option.some.inj hhead ▸ hknown)
    · rcases hfrom with hfrom | ⟨-, hfrom⟩
      · rw [hfrom] at hmany
        exact absurd hmany (by simp)
      · rw [hfrom] at hmany
        exact absurd hmany (by simp)
    · rcases hfrom with hfrom | ⟨-, hfrom⟩
      · rw [hfrom] at hhead
        exact hno (Option.some.inj hhead ▸ horigin)
      · rw [hfrom] at hhead
        cases hhead
    · rcases hfrom with hfrom | ⟨hread, -⟩
      · rw [hfrom] at hnil
        cases hnil
      · rw [hread] at hmutation
        cases hmutation
    · exact hsite hcross
  · rename_i hgood
    simp only [not_or, not_exists, not_and, not_not, not_lt] at hgood
    obtain ⟨hone, hhost, hatMost, horigin, hmutation, hsite⟩ := hgood
    obtain ⟨host, hhosts'⟩ := List.length_eq_one_iff.mp hone
    rw [hhosts'] at hhost ⊢
    have hknown : host ∈ hosts := hhost host rfl
    split
    · rename_i hnone
      have hnil := List.head?_eq_none_iff.mp hnone
      refine .inl ⟨rfl, ?_⟩
      obtain ⟨o, ho, horig⟩ := (hhosts host).mp hknown
      obtain ⟨scheme, hscheme, rfl⟩ := horig.text
      refine ⟨scheme, hscheme, host, ho, hhosts', .inr ⟨?_, hnil⟩, hsite⟩
      by_contra hyes
      exact hmutation (Bool.not_eq_false _ ▸ hyes) hnil
    · rename_i o hsome
      have hallowed := horigin o hsome
      obtain ⟨netloc, horig⟩ := hboundary.origin o hallowed
      have hfrom : getAll headers "Origin" = [o] := by
        obtain ⟨rest, hrest⟩ := List.head?_eq_some_iff.mp hsome
        rw [hrest] at hatMost ⊢
        have hnil : rest = [] := List.eq_nil_of_length_eq_zero (by
          rw [List.length_cons] at hatMost
          omega)
        rw [hnil]
      rw [horig.parsed, ok_bind]
      split
      · rename_i hdiffer
        refine .inr ⟨_, rfl, rfl, ?_⟩
        rintro ⟨scheme, hscheme, netloc', -, hhost', hfrom', -⟩
        rw [hhosts'] at hhost'
        obtain rfl := List.singleton_inj.mp hhost'
        rcases hfrom' with hfrom' | ⟨-, hfrom'⟩
        · rw [hfrom] at hfrom'
          have hsame := horig.netloc_eq hscheme (List.singleton_inj.mp hfrom')
          exact hdiffer (congrArg some hsame.symm)
        · rw [hfrom] at hfrom'
          cases hfrom'
      · rename_i hsame
        obtain rfl : host = netloc := Option.some.inj (Decidable.not_not.mp hsame)
        obtain ⟨scheme, hscheme, rfl⟩ := horig.text
        exact .inl ⟨rfl, scheme, hscheme, host, hallowed, hhosts', .inl hfrom, hsite⟩

/-- **The boundary is closed.** A server that has started answers 403 to whatever does not
come from an allowed origin; off the loopback interface that is one HTTPS origin, of a proxy
that the operator trusts. -/
theorem boundary_closed {config : ServerConfig} {origins : List PyStr}
    (h : allowedOrigins nfkcSafe looksInside config = .ok origins) (headers : Headers)
    (mutation : Bool) :
    (authorized nfkcSafe looksInside config headers mutation = .ok none ↔
      FromOrigin origins headers mutation) ∧
    (¬ FromOrigin origins headers mutation → ∃ reply,
      authorized nfkcSafe looksInside config headers mutation = .ok (some reply) ∧
        reply.code = 403) ∧
    ∀ address, ipAddress config.bind = some address → isLoopback looksInside address = false →
      config.trustProxy = true ∧ origins = [config.publicOrigin] ∧
        ∃ netloc, config.publicOrigin = "https".toList ++ "://".toList ++ netloc := by
  have hcases := authorized_cases nfkcSafe looksInside h headers mutation
  refine ⟨?_, ?_, (boundary_of_allowed nfkcSafe looksInside h).network⟩
  · rcases hcases with ⟨hgood, hfrom⟩ | ⟨reply, hbad, -, hnot⟩
    · exact ⟨fun _ => hfrom, fun _ => hgood⟩
    · refine ⟨fun hgood => ?_, fun hfrom => absurd hfrom hnot⟩
      rw [hbad] at hgood
      cases hgood
  · intro hnot
    rcases hcases with ⟨-, hfrom⟩ | ⟨reply, hbad, hcode, -⟩
    · exact absurd hfrom hnot
    · exact ⟨reply, hbad, hcode⟩

/-- A dashboard behind a proxy. -/
def proxyConfig : ServerConfig :=
  ⟨"0.0.0.0".toList, 8081, "https://srx.example".toList, true⟩

theorem boundary_closed_proxy :
    allowedOrigins (fun _ => false) true proxyConfig = .ok ["https://srx.example".toList] ∧
    ∀ headers mutation, authorized (fun _ => false) true proxyConfig headers mutation = .ok none ↔
      FromOrigin ["https://srx.example".toList] headers mutation := by
  have h : allowedOrigins (fun _ => false) true proxyConfig =
      .ok ["https://srx.example".toList] := by decide
  exact ⟨h, fun headers mutation => (boundary_closed _ _ h headers mutation).1⟩

end

end SrxProbe.Dashboard
