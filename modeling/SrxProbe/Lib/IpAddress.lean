import SrxProbe.Lib.Text

/-!
# IP addresses

Reading IPv4 and IPv6 addresses, and the text an address is printed as. A printed
IPv6 address is compressed at its longest run of zeros.
-/

namespace SrxProbe.Lib

/-- An address as a number, an IPv6 one with its scope. -/
inductive IpAddress
  | v4 (ip : Nat)
  | v6 (ip : Nat) (scopeId : Option PyStr)
  deriving DecidableEq, Repr

namespace IpAddress

def isV6 : IpAddress → Bool
  | v4 _ => false
  | v6 _ _ => true

/-! ## Reading -/

def isAsciiDigit (c : Char) : Bool := inRange '0' '9' c

/-- `_parse_octet`. -/
def parseOctet (octet : PyStr) : Option Nat :=
  if octet.isEmpty || !octet.all isAsciiDigit || 3 < octet.length then none
  else if octet ≠ ['0'] && octet.head? = some '0' then none
  else
    let n := Nat.ofDigitChars 10 octet 0
    if 255 < n then none else some n

/-- `IPv4Address(s)`. -/
def parseV4 (s : PyStr) : Option Nat :=
  let octets := s.splitOn '.'
  if octets.length ≠ 4 then none
  else octets.foldlM (fun ip octet => (parseOctet octet).map (256 * ip + ·)) 0

/-- The value of a hexadecimal digit. -/
def hexValue (c : Char) : Option Nat :=
  if inRange '0' '9' c then some (c.toNat - '0'.toNat)
  else if inRange 'a' 'f' c then some (c.toNat - 'a'.toNat + 10)
  else if inRange 'A' 'F' c then some (c.toNat - 'A'.toNat + 10)
  else none

/-- `_parse_hextet`. -/
def parseHextet (hextet : PyStr) : Option Nat :=
  if hextet.isEmpty || 4 < hextet.length then none
  else hextet.foldlM (fun n c => (hexValue c).map (16 * n + ·)) 0

def readHextets (ip : Nat) (parts : List PyStr) : Option Nat :=
  parts.foldlM (fun ip part => (parseHextet part).map (65536 * ip + ·)) ip

/-- `_ip_int_from_string` of IPv6, from the parts between the colons. An empty part
that is neither the first nor the last is the gap of a run of zeros. -/
def readParts (parts : List PyStr) : Option Nat :=
  let interior := parts.tail.dropLast
  if 9 < parts.length then none
  else if interior.count [] = 0 then
    if parts.length ≠ 8 || parts.head? = some [] || parts.getLast? = some [] then none
    else readHextets 0 parts
  else if interior.count [] = 1 then
    let skip := interior.idxOf [] + 1
    let hi := if parts.head? = some [] then skip - 1 else skip
    let lo := parts.length - skip - 1
    let lo := if parts.getLast? = some [] then lo - 1 else lo
    -- a colon at either end has to belong to the gap
    if parts.head? = some [] && hi ≠ 0 then none
    else if parts.getLast? = some [] && lo ≠ 0 then none
    else if 8 ≤ hi + lo then none
    else do
      let ip ← readHextets 0 (parts.take hi)
      readHextets (65536 ^ (8 - (hi + lo)) * ip) (parts.drop (parts.length - lo))
  else none

/-- `'%x' % n`. -/
def hexText (n : Nat) : PyStr := Nat.toDigits 16 n

/-- An IPv4 suffix in hexadecimal. -/
def unfoldSuffix (parts : List PyStr) : Option (List PyStr) :=
  match parts.getLast? with
  | some last =>
      if '.' ∈ last then do
        let ip ← parseV4 last
        some (parts.dropLast ++ [hexText (ip / 65536 % 65536), hexText (ip % 65536)])
      else some parts
  | none => none

/-- The number of an IPv6 address without its scope. -/
def parseV6Number (s : PyStr) : Option Nat :=
  let parts := s.splitOn ':'
  if parts.length < 3 then none else (unfoldSuffix parts).bind readParts

/-- `IPv6Address(s)`. -/
def parseV6 (s : PyStr) : Option (Nat × Option PyStr) :=
  if '/' ∈ s then none
  else
    let addr := s.takeWhile (· ≠ '%')
    match s.dropWhile (· ≠ '%') with
    | [] => (parseV6Number addr).map (·, none)
    | _ :: scopeId =>
        if scopeId.isEmpty || '%' ∈ scopeId then none
        else (parseV6Number addr).map (·, some scopeId)

end IpAddress

open IpAddress in
/-- `ipaddress.ip_address(s)`, `none` where it raises `ValueError`. -/
def ipAddress (s : PyStr) : Option IpAddress :=
  match parseV4 s with
  | some ip => some (.v4 ip)
  | none => (parseV6 s).map fun (ip, scopeId) => .v6 ip scopeId

namespace IpAddress

/-! ## Printing -/

/-- The longest run of zeros: where the best and the current one begin, and how
long they are. -/
structure ZeroRun where
  bestStart : Nat
  bestLen : Nat
  start : Option Nat
  len : Nat
  deriving DecidableEq, Repr

/-- One turn of the loop of `_compress_hextets`. -/
def ZeroRun.step (run : ZeroRun) (index : Nat) (hextet : PyStr) : ZeroRun :=
  if hextet = ['0'] then
    let start := run.start.getD index
    let len := run.len + 1
    if run.bestLen < len then ⟨start, len, some start, len⟩
    else ⟨run.bestStart, run.bestLen, some start, len⟩
  else ⟨run.bestStart, run.bestLen, none, 0⟩

def zeroRun : Nat → ZeroRun → List PyStr → ZeroRun
  | _, run, [] => run
  | index, run, hextet :: rest => zeroRun (index + 1) (run.step index hextet) rest

/-- The hextets with those from `start` to `stop` replaced by a gap. -/
def replaceRun (hextets : List PyStr) (start stop : Nat) : List PyStr :=
  (if start = 0 then [[]] else []) ++ hextets.take start ++ [[]] ++ hextets.drop stop ++
    (if stop = hextets.length then [[]] else [])

/-- `_compress_hextets`. -/
def compressHextets (hextets : List PyStr) : List PyStr :=
  let run := zeroRun 0 ⟨0, 0, none, 0⟩ hextets
  if 1 < run.bestLen then replaceRun hextets run.bestStart (run.bestStart + run.bestLen)
  else hextets

/-- The eight hextets of a number. -/
def hextets (ip : Nat) : List PyStr :=
  (List.range 8).map fun i => hexText (ip / 65536 ^ (7 - i) % 65536)

/-- `str(address)`. -/
def str : IpAddress → PyStr
  | v4 ip => ['.'].intercalate
      ((List.range 4).map fun i => Nat.toDigits 10 (ip / 256 ^ (3 - i) % 256))
  | v6 ip none => [':'].intercalate (compressHextets (hextets ip))
  | v6 ip (some scopeId) => [':'].intercalate (compressHextets (hextets ip)) ++ '%' :: scopeId

end IpAddress

end SrxProbe.Lib
