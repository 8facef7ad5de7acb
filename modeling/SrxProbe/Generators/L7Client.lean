import SrxProbe.Generators.DnsQuery
import SrxProbe.Generators.Stimuli
import SrxProbe.Lib.HttpRequest

/-!
# Scripted requests

The requests of the application-layer generator and the loop that reads what comes back. The
loop takes a bounded number of octets, however the peer cuts them, and a delivery of the test
file is an error unless the file, a reset or a blocking status came back.
-/

namespace SrxProbe.Generators

open SrxProbe.Lib SrxProbe.Validation

/-! ## The request -/

/-- `EICAR`. -/
def eicar : PyStr :=
  "X5O!P%@AP[4\\PZX54(P^)7CC)7\x7d$EICAR-STANDARD-ANTIVIRUS-TEST-FILE!$H+H*".toList

/-- `GTUBE`. -/
def gtube : PyStr := "XJS*C4JDBQADN1.NSBN3*2IDNEN*GTUBE-STANDARD-ANTI-UBE-TEST-EMAIL*C.34X".toList

/-- `HTTP_RESPONSE_LIMIT`. -/
def httpResponseLimit : Nat := 1024 * 1024

/-- `HTTP_RESPONSE_TIMEOUT_S`. -/
def httpResponseTimeoutS : Time := 10

/-- `HTTP_BLOCK_STATUSES`. -/
def httpBlockStatuses : List Int := [403, 451]

/-- `req` of `_raw_http`. -/
def httpRequest (dstIp path : PyStr) (body : Option PyStr) : PyStr :=
  match body with
  | none => "GET ".toList ++ path ++ " HTTP/1.1\r\nHost: ".toList ++ dstIp ++
      "\r\nConnection: close\r\n\r\n".toList
  | some body => "POST ".toList ++ path ++ " HTTP/1.1\r\nHost: ".toList ++ dstIp ++ "\r\n".toList ++
      "Content-Length: ".toList ++ intText body.length ++
      "\r\nConnection: close\r\n\r\n".toList ++ body

/-! ## The response -/

/-- What a call of `recv` comes to; no bytes are the end of the connection. -/
inductive HttpRecv
  | chunk (data : Bytes)
  | reset
  | timeout
  | failed (exc : Raised)

/-- What the calls of a request come to: `connect` with `getsockname`, `sendall`, the clock
reading the deadline is counted from, and for every turn of the loop the clock reading and what
`recv` comes to. -/
structure HttpWorld where
  connect : Except Raised (PyStr × Int)
  sendall : Bytes → Except Raised Unit
  start : Time
  now : Nat → Time
  recv : Nat → HttpRecv

def runtimeError (message : PyStr) : Raised := ⟨.other, message⟩

namespace HttpWorld

def deadline (w : HttpWorld) : Time := w.start + httpResponseTimeoutS

/-- The loop over `recv`, from turn `i` on: the response and whether the peer reset. -/
def receive (w : HttpWorld) (tooLong : Raised) :
    Nat → Nat → Bytes → Option (Except Raised (Bytes × Bool))
  | 0, _, _ => none
  | fuel + 1, i, response =>
      if w.deadline - w.now i ≤ 0 then some (.ok (response, false))
      else
        match w.recv i with
        | .chunk [] => some (.ok (response, false))
        | .chunk chunk =>
            if httpResponseLimit < response.length + chunk.length then some (.error tooLong)
            else receive w tooLong fuel (i + 1) (response ++ chunk)
        | .reset => some (.ok (response, true))
        | .timeout => some (.ok (response, false))
        | .failed exc => some (.error exc)

/-- Enough turns for every response: each takes a byte. -/
def fuel : Nat := httpResponseLimit + 2

end HttpWorld

/-- Bytes, a character for each. -/
def byteText (data : Bytes) : PyStr := data.map fun b => Char.ofNat b.toNat

/-- A byte that `bytes.split()` splits at. -/
def splitsBytes (c : Char) : Bool := c = ' ' || (0x09 ≤ c.toNat && c.toNat ≤ 0x0D)

/-- `status` of a response. -/
def responseStatus (response : Bytes) : Except Raised (Option Int) :=
  let text := byteText response
  let statusLine := (((Http.splitLine text).map Prod.fst).getD text).splitOnP splitsBytes
  match statusLine.filter (· ≠ []) with
  | _ :: status :: _ =>
      if status.all IpAddress.isAsciiDigit then
        (orRaise (parseInt status) ⟨.stdValueError, []⟩).map some
      else .ok none
  | _ => .ok none

/-- The part of `_raw_http` behind the loop: whether the test file or a block came back. -/
def checkResponse (notBlocked : Raised) (expected : PyStr) (response : Bytes) (reset : Bool) :
    Except Raised Unit := do
  let status ← responseStatus response
  raiseIf (¬ encodeUtf8 expected <:+: response ∧ reset = false ∧
    ¬ ∃ code ∈ status, code ∈ httpBlockStatuses) notBlocked

/-- `_raw_http`: the ends of the connection. -/
def rawHttp (w : HttpWorld) (dstIp : PyStr) (dstPort : Int) (path : PyStr)
    (body expected : Option PyStr) : Except Raised (PyStr × Int) := do
  let ends ← w.connect
  w.sendall (encodeUtf8 (httpRequest dstIp path body))
  let name := "HTTP response from ".toList ++ dstIp ++ ':' :: intText dstPort ++ path
  let tooLong := runtimeError (name ++ " exceeded ".toList ++ intText httpResponseLimit ++
    " bytes".toList)
  let (response, reset) ← (w.receive tooLong HttpWorld.fuel 0 []).getD (.error tooLong)
  match expected with
  | none => return ends
  | some expected => do
      let notBlocked := runtimeError (name ++
        " neither contained the expected test payload nor ".toList ++
        "indicated that security enforcement blocked it".toList)
      checkResponse notBlocked expected response reset
      return ends

/-! ## Stimuli -/

/-- The five methods: the ends of a connection or of the route to the target, and what is
expected of it. -/
def connectionStimulus (ends : Option (PyStr × Int)) (dstIp : PyStr) (protocol : String)
    (dstPort : Int) (ts : Timestamp) (expectedEventType : String) (payloadClass : PyStr)
    (detectionTarget : String) (lastField : String) : Stimulus where
  fiveTuple := ⟨ends.map Prod.fst, some dstIp, some protocol.toList, ends.map Prod.snd,
    some dstPort⟩
  timestamp := ts
  expectedEventType := expectedEventType.toList
  payloadClass := payloadClass
  detectionTarget := detectionTarget.toList
  expectedFields := ["source-address".toList, "destination-address".toList, lastField.toList]

/-- Where `send=False`, the ends are those of `_local_addr_for`. -/
def endsOf (localAddr : Option (PyStr × Int)) (send : Option (Except Raised (PyStr × Int))) :
    Except Raised (Option (PyStr × Int)) :=
  match send with
  | none => .ok localAddr
  | some sent => sent.map some

section client

variable (localAddr : Option (PyStr × Int)) (dstIp : PyStr) (ts : Timestamp)

/-- `http_get`; the world is there when it sends. -/
def httpGet (url : PyStr) (dstPort : Int) (send : Option HttpWorld) : Except Raised Stimulus := do
  let ends ← endsOf localAddr (send.map fun w => rawHttp w dstIp dstPort url none none)
  return connectionStimulus ends dstIp "TCP" dstPort ts "APPTRACK_SESSION_CREATE"
    "http-get".toList "App-ID generic" "application"

/-- `deliver_eicar_http`. -/
def deliverEicarHttp (dstPort : Int) (path : PyStr) (send : Option HttpWorld) :
    Except Raised Stimulus := do
  let ends ← endsOf localAddr (send.map fun w => rawHttp w dstIp dstPort path none (some eicar))
  return connectionStimulus ends dstIp "TCP" dstPort ts "AV_VIRUS_DETECTED_MT"
    "EICAR".toList "Antivirus/UTM" "virus-name"

/-- `deliver_gtube_http`. -/
def deliverGtubeHttp (dstPort : Int) (path : PyStr) (send : Option HttpWorld) :
    Except Raised Stimulus := do
  let ends ← endsOf localAddr (send.map fun w => rawHttp w dstIp dstPort path (some gtube) none)
  return connectionStimulus ends dstIp "TCP" dstPort ts "RT_IDP_ATTACK_LOG_EVENT"
    "GTUBE".toList "IDP signature match" "attack-name"

/-- What `_raw_dns` makes of the answer it receives. -/
def checkDnsResponse (dnsServer : PyStr) (response : Bytes) : Except Raised Unit :=
  raiseIf (response.length < 12 ∨ response.take 2 ≠ [0xab, 0xcd] ∨
      (response.getD 2 0) &&& 0x80 = 0)
    (runtimeError ("Invalid DNS response from ".toList ++ dnsServer))

/-- What the calls of a query come to: `connect` with `getsockname`, `send` and `recv`. -/
structure DnsWorld where
  connect : Except Raised (PyStr × Int)
  send : Except Raised Unit
  recv : Except Raised Bytes

/-- `_raw_dns`. -/
def rawDns (w : DnsWorld) (dnsServer qname : PyStr) : Except Raised (PyStr × Int) := do
  match dnsPacket qname with
  | .error err => .error ⟨err, []⟩
  | .ok _ => do
      let ends ← w.connect
      w.send
      checkDnsResponse dnsServer (← w.recv)
      return ends

/-- `dns_query`. -/
def dnsQuery (qname : PyStr) (send : Option DnsWorld) : Except Raised Stimulus := do
  let ends ← endsOf localAddr (send.map fun w => rawDns w dstIp qname)
  return connectionStimulus ends dstIp "UDP" 53 ts "APPTRACK_SESSION_CREATE"
    "dns-query".toList "App-ID generic" "application"

/-- `tcp_handshake`; reading the banner may time out. `lower` is that of the host. -/
def tcpHandshake (host : Host) (dstPort : Int) (app : PyStr)
    (send : Option (Except Raised (PyStr × Int) × HttpRecv)) : Except Raised Stimulus := do
  let ends ← endsOf localAddr (send.map fun (connect, banner) => do
    let ends ← connect
    match banner with
    | .failed exc => .error exc
    | .reset => .error ⟨.osError, []⟩
    | .timeout | .chunk _ => return ends)
  return connectionStimulus ends dstIp "TCP" dstPort ts "APPTRACK_SESSION_CREATE"
    (host.lower app ++ "-handshake".toList) "App-ID generic" "application"

end client

/-! ## The loop -/

namespace HttpWorld

/-- The data of a turn. -/
def dataAt (w : HttpWorld) (i : Nat) : Bytes :=
  match w.recv i with
  | .chunk data => data
  | _ => []

/-- What the first turns received. -/
def received (w : HttpWorld) (n : Nat) : Bytes := (List.range n).flatMap w.dataAt

/-- The turn goes on: data in time. -/
def GoesOn (w : HttpWorld) (i : Nat) : Prop :=
  w.now i < w.deadline ∧ ∃ data, w.recv i = .chunk data ∧ data ≠ []

/-- The turn ends the response, by a reset or otherwise. -/
def Stops (w : HttpWorld) (i : Nat) (reset : Bool) : Prop :=
  if w.now i < w.deadline then
    match w.recv i with
    | .chunk [] | .timeout => reset = false
    | .reset => reset = true
    | _ => False
  else reset = false

/-- The response ends at turn `n`, and it is not too long. -/
structure Ends (w : HttpWorld) (n : Nat) (reset : Bool) : Prop where
  goesOn : ∀ i < n, w.GoesOn i
  stops : w.Stops n reset
  fits : (w.received n).length ≤ httpResponseLimit

variable {w : HttpWorld} {tooLong : Raised}

theorem received_succ (n : Nat) : w.received (n + 1) = w.received n ++ w.dataAt n := by
  unfold received
  rw [List.range_succ, List.flatMap_append, List.flatMap_singleton]

theorem length_received_mono {m n : Nat} (h : m ≤ n) :
    (w.received m).length ≤ (w.received n).length := by
  induction n, h using Nat.le_induction with
  | base => exact Nat.le_refl _
  | succ n _ ih =>
      rw [received_succ, List.length_append]
      exact Nat.le_add_right_of_le ih

/-- Every turn takes a byte. -/
theorem le_length_received {n : Nat} (h : ∀ i < n, w.GoesOn i) : n ≤ (w.received n).length := by
  induction n with
  | zero => exact Nat.zero_le _
  | succ n ih =>
      have hn := ih fun i hi => h i (Nat.lt_succ_of_lt hi)
      obtain ⟨-, data, hdata, hne⟩ := h n (Nat.lt_succ_self n)
      have hpos := List.length_pos_of_ne_nil hne
      rw [received_succ, List.length_append, dataAt, hdata]
      dsimp only
      omega

/-- The response does not depend on how many turns are left. -/
theorem receive_of_ends {n : Nat} {reset : Bool} (h : w.Ends n reset) {fuel i : Nat}
    (hi : i ≤ n) (hfuel : n < fuel + i) :
    w.receive tooLong fuel i (w.received i) = some (.ok (w.received n, reset)) := by
  induction fuel generalizing i with
  | zero => omega
  | succ fuel ih =>
      unfold receive
      rcases Nat.lt_or_eq_of_le hi with hlt | rfl
      · obtain ⟨htime, data, hdata, hne⟩ := h.goesOn i hlt
        have hsucc : w.received i ++ data = w.received (i + 1) := by
          rw [received_succ, dataAt, hdata]
        have hfits := (length_received_mono hlt).trans h.fits
        rw [← hsucc, List.length_append] at hfits
        rw [if_neg (by simpa using htime), hdata]
        cases data with
        | nil => exact absurd rfl hne
        | cons b data =>
            dsimp only
            rw [if_neg (Nat.not_lt.mpr hfits), hsucc]
            exact ih hlt (by omega)
      · have hstops := h.stops
        unfold Stops at hstops
        split at hstops
        · rename_i htime
          rw [if_neg (by simpa using htime)]
          split at hstops
          · rename_i hrecv
            rw [hrecv, hstops]
          · rename_i hrecv
            rw [hrecv, hstops]
          · rename_i hrecv
            rw [hrecv, hstops]
          · cases hstops
        · rename_i htime
          rw [if_pos (by simpa using htime), hstops]

theorem ends_of_receive {fuel i : Nat} {response : Bytes} {reset : Bool}
    (hgoesOn : ∀ j < i, w.GoesOn j) (hfits : (w.received i).length ≤ httpResponseLimit)
    (h : w.receive tooLong fuel i (w.received i) = some (.ok (response, reset))) :
    ∃ n, w.Ends n reset ∧ response = w.received n := by
  induction fuel generalizing i with
  | zero => cases h
  | succ fuel ih =>
      unfold receive at h
      split at h
      · rename_i htime
        cases h
        exact ⟨i, ⟨hgoesOn, by unfold Stops; rw [if_neg (by simpa using htime)], hfits⟩, rfl⟩
      · rename_i htime
        have htime : w.now i < w.deadline := by simpa using htime
        split at h
        · rename_i hrecv
          cases h
          exact ⟨i, ⟨hgoesOn, by unfold Stops; rw [if_pos htime, hrecv], hfits⟩, rfl⟩
        · rename_i chunk hne hrecv
          split at h
          · cases h
          · rename_i hlong
            have hsucc : w.received i ++ chunk = w.received (i + 1) := by
              rw [received_succ, dataAt, hrecv]
            rw [← List.length_append, hsucc] at hlong
            rw [hsucc] at h
            refine ih ?_ (Nat.not_lt.mp hlong) h
            intro j hj
            rcases Nat.lt_succ_iff_lt_or_eq.mp hj with hj | rfl
            · exact hgoesOn j hj
            · exact ⟨htime, chunk, hrecv, hne⟩
        · rename_i hrecv
          cases h
          exact ⟨i, ⟨hgoesOn, by unfold Stops; rw [if_pos htime, hrecv], hfits⟩, rfl⟩
        · rename_i hrecv
          cases h
          exact ⟨i, ⟨hgoesOn, by unfold Stops; rw [if_pos htime, hrecv], hfits⟩, rfl⟩
        · cases h

/-- The loop comes to an end, whatever the peer sends. -/
theorem receive_isSome {fuel i : Nat} (hgoesOn : ∀ j < i, w.GoesOn j)
    (hfits : (w.received i).length ≤ httpResponseLimit) (hfuel : httpResponseLimit < fuel + i) :
    (w.receive tooLong fuel i (w.received i)).isSome = true := by
  induction fuel generalizing i with
  | zero =>
      have hle := le_length_received hgoesOn
      omega
  | succ fuel ih =>
      unfold receive
      split
      · rfl
      · rename_i htime
        split
        · rfl
        · rename_i chunk hne hrecv
          split
          · rfl
          · rename_i hlong
            have hsucc : w.received i ++ chunk = w.received (i + 1) := by
              rw [received_succ, dataAt, hrecv]
            rw [← List.length_append, hsucc] at hlong
            rw [hsucc]
            refine ih ?_ (Nat.not_lt.mp hlong) (by omega)
            intro j hj
            rcases Nat.lt_succ_iff_lt_or_eq.mp hj with hj | rfl
            · exact hgoesOn j hj
            · exact ⟨by simpa using htime, chunk, hrecv, hne⟩
        · rfl
        · rfl
        · rfl

end HttpWorld

/-! ## The exchange -/

section exchange

variable {w : HttpWorld} {dstIp path : PyStr} {dstPort : Int} {body expected : Option PyStr}
  {ends : PyStr × Int}

/-- What has to come back for a delivery to count. -/
def Acceptable (expected : PyStr) (response : Bytes) (reset : Bool) : Prop :=
  ∃ status, responseStatus response = .ok status ∧
    (encodeUtf8 expected <:+: response ∨ reset = true ∨ ∃ code ∈ status, code ∈ httpBlockStatuses)

theorem checkResponse_ok_iff {notBlocked : Raised} {expected : PyStr} {response : Bytes}
    {reset : Bool} : checkResponse notBlocked expected response reset = .ok () ↔
      Acceptable expected response reset := by
  unfold checkResponse
  rw [bind_ok_iff]
  refine exists_congr fun status => and_congr_right fun _ => ?_
  rw [raiseIf_ok_iff]
  cases reset with
  | false =>
      simp only [not_and_or, not_not, not_true_eq_false, Bool.false_eq_true, false_or]
  | true => simp

/-- The loop returns what it received up to the end. -/
theorem receive_ok_iff {tooLong : Raised} {response : Bytes} {reset : Bool} :
    (w.receive tooLong HttpWorld.fuel 0 []).getD (.error tooLong) = .ok (response, reset) ↔
      ∃ n, w.Ends n reset ∧ response = w.received n := by
  constructor
  · intro h
    cases hreceive : w.receive tooLong HttpWorld.fuel 0 [] with
    | none =>
        rw [hreceive] at h
        cases h
    | some result =>
        rw [hreceive] at h
        have hok : w.receive tooLong HttpWorld.fuel 0 (w.received 0) =
            some (.ok (response, reset)) := hreceive.trans (congrArg some h)
        exact HttpWorld.ends_of_receive (fun j hj => absurd hj (Nat.not_lt_zero j)) (Nat.zero_le _)
          hok
  · rintro ⟨n, hends, rfl⟩
    have hlen := HttpWorld.le_length_received hends.goesOn
    have hfits := hends.fits
    have hfuel : n < HttpWorld.fuel + 0 := by
      unfold HttpWorld.fuel
      omega
    have hok : w.receive tooLong HttpWorld.fuel 0 [] = some (.ok (w.received n, reset)) :=
      HttpWorld.receive_of_ends hends (Nat.zero_le n) hfuel
    rw [hok]
    rfl

theorem rawHttp_ok_iff {expected : PyStr} :
    rawHttp w dstIp dstPort path body (some expected) = .ok ends ↔
      w.connect = .ok ends ∧ w.sendall (encodeUtf8 (httpRequest dstIp path body)) = .ok () ∧
        ∃ n reset, w.Ends n reset ∧ Acceptable expected (w.received n) reset := by
  unfold rawHttp
  rw [bind_ok_iff]
  constructor
  · rintro ⟨ends', hconnect, h⟩
    obtain ⟨hsend, h⟩ := seq_ok_iff.mp h
    obtain ⟨⟨response, reset⟩, hreceive, h⟩ := bind_ok_iff.mp h
    obtain ⟨hcheck, hends⟩ := seq_ok_iff.mp h
    obtain ⟨n, hn, rfl⟩ := receive_ok_iff.mp hreceive
    cases hends
    exact ⟨hconnect, hsend, n, reset, hn, checkResponse_ok_iff.mp hcheck⟩
  · rintro ⟨hconnect, hsend, n, reset, hn, haccept⟩
    refine ⟨ends, hconnect, seq_ok_iff.mpr ⟨hsend, bind_ok_iff.mpr
      ⟨(w.received n, reset), receive_ok_iff.mpr ⟨n, hn, rfl⟩, ?_⟩⟩⟩
    exact seq_ok_iff.mpr ⟨checkResponse_ok_iff.mpr haccept, rfl⟩

/-- A response that ends is all that the result depends on. -/
theorem rawHttp_of_ends {n : Nat} {reset : Bool} (h : w.Ends n reset) :
    rawHttp w dstIp dstPort path body expected = (do
      let ends ← w.connect
      w.sendall (encodeUtf8 (httpRequest dstIp path body))
      match expected with
      | none => return ends
      | some expected => do
          checkResponse (runtimeError ("HTTP response from ".toList ++ dstIp ++ ':' ::
            intText dstPort ++ path ++ " neither contained the expected test payload nor ".toList ++
            "indicated that security enforcement blocked it".toList)) expected
            (w.received n) reset
          return ends) := by
  unfold rawHttp
  congr 1
  funext ends
  congr 1
  funext _
  dsimp only
  rw [receive_ok_iff.mpr ⟨n, h, rfl⟩]
  rfl

/-- What the client makes of a request and of what comes back, whatever the peer does. -/
structure ExchangeVerdict (w : HttpWorld) (dstIp : PyStr) (dstPort : Int) (path : PyStr)
    (body : Option PyStr) : Prop where
  /-- the loop comes to an end -/
  total : ∀ tooLong, (w.receive tooLong HttpWorld.fuel 0 []).isSome = true
  /-- after no more turns than the bytes it takes, which are at most the limit -/
  bounded : ∀ n reset, w.Ends n reset →
    n ≤ (w.received n).length ∧ (w.received n).length ≤ httpResponseLimit
  /-- a delivery counts exactly when the response ends and is acceptable -/
  delivered : ∀ expected ends,
    rawHttp w dstIp dstPort path body (some expected) = .ok ends ↔
      w.connect = .ok ends ∧ w.sendall (encodeUtf8 (httpRequest dstIp path body)) = .ok () ∧
        ∃ n reset, w.Ends n reset ∧ Acceptable expected (w.received n) reset
  /-- the chunks do not matter, nor when they came -/
  chunks : ∀ (w' : HttpWorld) n n' reset, w.Ends n reset → w'.Ends n' reset →
    w.received n = w'.received n' → w.connect = w'.connect → w.sendall = w'.sendall →
    ∀ expected, rawHttp w dstIp dstPort path body expected =
      rawHttp w' dstIp dstPort path body expected

/-- **The verdict on a delivery** is that of the octets received, up to a limit. -/
theorem exchange_verdict (w : HttpWorld) (dstIp : PyStr) (dstPort : Int) (path : PyStr)
    (body : Option PyStr) : ExchangeVerdict w dstIp dstPort path body where
  total := by
    intro tooLong
    refine HttpWorld.receive_isSome (fun j hj => absurd hj (Nat.not_lt_zero j)) (Nat.zero_le _) ?_
    unfold HttpWorld.fuel
    omega
  bounded := fun n reset h => ⟨HttpWorld.le_length_received h.goesOn, h.fits⟩
  delivered := fun expected ends => rawHttp_ok_iff
  chunks := by
    intro w' n n' reset h h' hreceived hconnect hsendall expected
    rw [rawHttp_of_ends h, rawHttp_of_ends h', hreceived, hconnect, hsendall]

/-- The ends of a connection are those of the socket, whatever comes back. -/
theorem connect_of_rawHttp (h : rawHttp w dstIp dstPort path body expected = .ok ends) :
    w.connect = .ok ends := by
  obtain ⟨ends', hconnect, h⟩ := bind_ok_iff.mp h
  obtain ⟨-, h⟩ := seq_ok_iff.mp h
  obtain ⟨_, -, h⟩ := bind_ok_iff.mp h
  cases expected with
  | none =>
      cases h
      exact hconnect
  | some expected =>
      obtain ⟨-, hends⟩ := seq_ok_iff.mp h
      cases hends
      exact hconnect

/-- A request of the client as a server reads it. -/
def sentRequest (dstIp path : PyStr) (body : Option PyStr) : Http.Request where
  method :=
    match body with
    | none => "GET".toList
    | some _ => "POST".toList
  target := Http.octets path
  fields := ("Host".toList, Http.octets dstIp) ::
    ((body.map fun body => ("Content-Length".toList, intText body.length)).toList ++
      [("Connection".toList, "close".toList)])
  body := body.getD []

theorem isAlnum_intText {n : Nat} {c : Char} (h : c ∈ intText n) : isAlnum c = true := by
  rw [Collectors.Pcap.intText_natCast] at h
  have hdigit : inRange '0' '9' c = true := IpAddress.isAsciiDigit_of_mem_toDigits h
  unfold isAlnum
  rw [hdigit, Bool.or_true]

theorem octets_httpRequest (hbody : ∀ b ∈ body, ∀ c ∈ b, c.toNat < 0x80) :
    Http.octets (httpRequest dstIp path body) = (sentRequest dstIp path body).write := by
  have hascii : ∀ s : PyStr, (s.all fun c => decide (c.toNat < 0x80)) = true →
      Http.octets s = s := by
    intro s hs
    exact Http.octets_ascii fun c hc => of_decide_eq_true (List.all_eq_true.mp hs c hc)
  cases body with
  | none =>
      unfold httpRequest
      simp only [Http.octets_append]
      rw [hascii "GET ".toList (by decide), hascii " HTTP/1.1\r\nHost: ".toList (by decide),
        hascii "\r\nConnection: close\r\n\r\n".toList (by decide)]
      simp [sentRequest, Http.Request.write, Http.writeField]
  | some body =>
      have hlength : Http.octets (intText body.length) = intText body.length :=
        Http.octets_ascii fun c hc => isAscii_of_isAlnum (isAlnum_intText hc)
      unfold httpRequest
      simp only [Http.octets_append]
      rw [hascii "POST ".toList (by decide), hascii " HTTP/1.1\r\nHost: ".toList (by decide),
        hascii "\r\nConnection: close\r\n\r\n".toList (by decide),
        hascii "\r\n".toList (by decide), hascii "Content-Length: ".toList (by decide), hlength,
        Http.octets_ascii (hbody body rfl)]
      simp [sentRequest, Http.Request.write, Http.writeField]

theorem wellFormed_sentRequest (hdst : dstIp.all Http.isVisible = true)
    (hpath : path ≠ [] ∧ path.all Http.isVisible = true)
    (hbody : ∀ b ∈ body, (Nat.toDigits 10 b.length).length ≤ maxStrDigits) :
    (sentRequest dstIp path body).WellFormed where
  method := by cases body <;> exact ⟨List.cons_ne_nil _ _, rfl⟩
  target := ⟨Http.octets_ne_nil hpath.1, by
    show (Http.octets path).all Http.isVisible = true
    rw [Http.all_isVisible_octets]
    exact hpath.2⟩
  fields := by
    have hhost : (Http.octets dstIp).all Http.isVisible = true := by
      rw [Http.all_isVisible_octets]
      exact hdst
    have hlength : ∀ n : Nat, (intText n).all Http.isVisible = true := by
      intro n
      refine List.all_eq_true.mpr fun c hc => Http.isVisible_of_isNameChar ?_
      unfold Http.isNameChar
      rw [isAlnum_intText hc]
      rfl
    intro field hfield
    cases body with
    | none =>
        simp only [sentRequest, Option.map_none, Option.toList_none, List.nil_append,
          List.mem_cons, List.not_mem_nil, or_false] at hfield
        rcases hfield with rfl | rfl
        · exact ⟨List.cons_ne_nil _ _, rfl, hhost⟩
        · exact ⟨List.cons_ne_nil _ _, rfl, rfl⟩
    | some body =>
        simp only [sentRequest, Option.map_some, Option.toList_some, List.cons_append,
          List.nil_append, List.mem_cons, List.not_mem_nil, or_false] at hfield
        rcases hfield with rfl | rfl | rfl
        · exact ⟨List.cons_ne_nil _ _, rfl, hhost⟩
        · exact ⟨List.cons_ne_nil _ _, rfl, hlength _⟩
        · exact ⟨List.cons_ne_nil _ _, rfl, rfl⟩
  body := by
    cases body with
    | none => rfl
    | some body =>
        have hne : intText body.length ≠ [] := by
          rw [Collectors.Pcap.intText_natCast]
          exact Nat.toDigits_ne_nil
        have hdigits : (intText body.length).all IpAddress.isAsciiDigit = true := by
          refine List.all_eq_true.mpr fun c hc => ?_
          rw [Collectors.Pcap.intText_natCast] at hc
          exact IpAddress.isAsciiDigit_of_mem_toDigits hc
        have hparse : parseInt (intText body.length) = some (body.length : Int) := by
          apply parseInt_intText
          rw [Int.natAbs_natCast]
          exact hbody body rfl
        show (if intText body.length ≠ [] ∧ (intText body.length).all IpAddress.isAsciiDigit = true
          then (parseInt (intText body.length)).map Int.toNat else none) = some body.length
        rw [if_pos ⟨hne, hdigits⟩, hparse]
        rfl

/-- A server that reads strictly takes what is sent for one request, with the path as its target
and nothing behind it, exactly when the path has visible characters only. -/
theorem request_iff (hdst : dstIp.all Http.isVisible = true)
    (hbody : ∀ b ∈ body, (∀ c ∈ b, c.toNat < 0x80) ∧
      (Nat.toDigits 10 b.length).length ≤ maxStrDigits) :
    Http.readRequest (Http.octets (httpRequest dstIp path body)) =
        some (sentRequest dstIp path body, []) ↔ path ≠ [] ∧ path.all Http.isVisible = true := by
  constructor
  · intro h
    obtain ⟨hne, hvisible⟩ := Http.visible_of_readRequest h
    refine ⟨?_, ?_⟩
    · rintro rfl
      exact hne rfl
    · rw [← Http.all_isVisible_octets]
      exact hvisible
  · intro hpath
    rw [octets_httpRequest fun b hb => (hbody b hb).1]
    exact Http.readRequest_write (wellFormed_sentRequest hdst hpath fun b hb => (hbody b hb).2)

theorem request_iff_gtube :
    Http.readRequest (Http.octets (httpRequest "192.0.2.2".toList "/submit".toList (some gtube))) =
      some (sentRequest "192.0.2.2".toList "/submit".toList (some gtube), []) := by
  refine (request_iff (by decide) ?_).mpr ⟨List.cons_ne_nil _ _, by decide⟩
  intro b hb
  cases hb
  have hascii : (gtube.all fun c => decide (c.toNat < 0x80)) = true := by decide
  exact ⟨fun c hc => of_decide_eq_true (List.all_eq_true.mp hascii c hc), by decide⟩

end exchange

/-! ## The stimulus describes the connection -/

section stimuli

variable {localAddr : Option (PyStr × Int)} {dstIp src : PyStr} {ts : Timestamp}
  {dstPort sport : Int} {stimulus : Stimulus} {f : Flow}

theorem connectionStimulus_describes {protocol event target last : String} {proto : UInt8}
    {payloadClass : PyStr} (hwire : OnWire IsAddress src dstIp proto sport dstPort f)
    (hname : Collectors.Pcap.protoNum.lookup (intText proto.toNat) = some protocol.toList) :
    Describes (connectionStimulus (some (src, sport)) dstIp protocol dstPort ts event payloadClass
      target last).fiveTuple f :=
  describes_onWire hwire hname

/-- What is sent over a connection names the ends of that connection. -/
theorem endsOf_sent {sent : Except Raised (PyStr × Int)} {ends : Option (PyStr × Int)}
    (h : endsOf localAddr (some sent) = .ok ends) : ∃ e, sent = .ok e ∧ ends = some e := by
  cases sent with
  | error exc => cases h
  | ok e =>
      cases h
      exact ⟨e, rfl, rfl⟩

end stimuli

end SrxProbe.Generators
