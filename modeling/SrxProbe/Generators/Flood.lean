import Mathlib.Algebra.Order.Ring.Int
import SrxProbe.Generators.LoadGen

/-!
# Floods

The `hping3` command of a bounded flood. What it asks of `hping3` keeps to the ceilings,
and a flood that cannot keep to them is refused before the binary is looked up.
-/

namespace SrxProbe.Generators

open SrxProbe.Lib

/-! ## The command -/

/-- The floods there are. -/
inductive FloodType
  | syn
  | icmp
  | udp
  deriving DecidableEq, Repr

namespace FloodType

/-- The name of the flood. -/
def text : FloodType → PyStr
  | syn => "syn".toList
  | icmp => "icmp".toList
  | udp => "udp".toList

/-- The options of the protocol: a port for TCP and UDP. -/
def options (port : Int) : FloodType → List PyStr
  | syn => ["-S".toList, "-p".toList, intText port]
  | icmp => ["--icmp".toList]
  | udp => ["--udp".toList, "-p".toList, intText port]

end FloodType

/-- The world a builder runs in: `shutil.which`, `repr` of a text, and what `s.lower()` makes
of the character at an index of `s`, where it is beyond ASCII. -/
structure Host where
  which : PyStr → Option PyStr
  repr : PyStr → PyStr
  lowerAt : PyStr → Nat → PyStr

/-- `s.lower()`. -/
def Host.lower (host : Host) (s : PyStr) : PyStr :=
  s.zipIdx.flatMap fun c => if c.1.toNat < 128 then Lib.lower [c.1] else host.lowerAt s c.2

/-- `require_binary`. -/
def requireBinary (host : Host) (name : PyStr) : Except PyErr PyStr :=
  orRaise (host.which name) .fileNotFoundError

/-- `str(n)`, which raises for more digits than the interpreter converts. -/
def strInt (n : Int) : Except PyErr PyStr :=
  if (Nat.toDigits 10 n.natAbs).length ≤ maxStrDigits then .ok (intText n)
  else .error .stdValueError

/-- What a builder did: the binaries it looked up, and how it ended. -/
structure Built where
  lookedUp : List PyStr
  result : Except PyErr (List PyStr)

/-- The options that `build_hping3_flood_cmd` adds for the flood. -/
def floodOptions (host : Host) (floodType : PyStr) (dstPort : Int) :
    Except PyErr (List PyStr) :=
  let ft := host.lower floodType
  if ft = "syn".toList then do
    return ["-S".toList, "-p".toList, ← strInt dstPort]
  else if ft = "icmp".toList then return ["--icmp".toList]
  else if ft = "udp".toList then do
    return ["--udp".toList, "-p".toList, ← strInt dstPort]
  else .error (.valueError ("Unsupported flood_type ".toList ++ host.repr floodType ++
    "; choose syn|icmp|udp".toList))

/-- The part of `build_hping3_flood_cmd` after the binary is found. -/
def hping3Args (host : Host) (binary dstIp floodType : PyStr) (dstPort count ratePps : Int) :
    Except PyErr (List PyStr) := do
  let packets ← strInt count
  let interval ← strInt (WorkloadLimits.intervalUs ratePps)
  let options ← floodOptions host floodType dstPort
  return [binary, "-c".toList, packets, "-i".toList, 'u' :: interval] ++ options ++ [dstIp]

/-- `build_hping3_flood_cmd`. -/
def buildHping3FloodCmd (host : Host) (limits : WorkloadLimits) (dstIp floodType : PyStr)
    (dstPort count ratePps : Int) : Built :=
  let floodType := host.lower floodType
  match limits.flood (.str floodType) (.int dstPort) (.int count) (.int ratePps) with
  | .error e => ⟨[], .error e⟩
  | .ok _ => ⟨["hping3".toList], do
      let binary ← requireBinary host "hping3".toList
      hping3Args host binary dstIp floodType dstPort count ratePps⟩

/-! ## What the ceilings ask for -/

/-- A flood that keeps to the ceilings, with a pause between its packets that is as short
as the rate allows. -/
structure KeepsTo (limits : WorkloadLimits) (kind : FloodType) (port count rate pause : Int) :
    Prop where
  packets : count ≤ limits.maxPackets
  ceiling : rate ≤ limits.maxRatePps
  positive : 1 ≤ pause
  notFaster : 1000000 ≤ pause * rate
  notSlower : (pause - 1) * rate < 1000000
  duration : count * pause ≤ limits.maxDurationS * 1000000
  port : kind ≠ .icmp → 1 ≤ port ∧ port ≤ 65535

section pause

variable {rate pause : Int}

theorem intervalUs_bounds (hrate : 1 ≤ rate) :
    1 ≤ WorkloadLimits.intervalUs rate ∧ 1000000 ≤ WorkloadLimits.intervalUs rate * rate ∧
      (WorkloadLimits.intervalUs rate - 1) * rate < 1000000 := by
  have hpos : 0 < rate := by omega
  have hlow : WorkloadLimits.intervalUs rate * rate ≤ 1000000 + rate - 1 :=
    Int.ediv_mul_le _ hpos.ne'
  have hhigh : 1000000 + rate - 1 < (WorkloadLimits.intervalUs rate + 1) * rate :=
    Int.lt_ediv_add_one_mul_self _ hpos
  rw [add_mul, one_mul] at hhigh
  rw [sub_mul, one_mul]
  refine ⟨?_, by omega, by omega⟩
  rw [WorkloadLimits.intervalUs, Int.le_ediv_iff_mul_le hpos]
  omega

/-- The pause is the only one that fits the rate. -/
theorem eq_intervalUs (hpause : 1 ≤ pause) (hnotFaster : 1000000 ≤ pause * rate)
    (hnotSlower : (pause - 1) * rate < 1000000) :
    1 ≤ rate ∧ pause = WorkloadLimits.intervalUs rate := by
  have hrate : 1 ≤ rate := by
    by_contra hneg
    have hle : pause * rate ≤ 0 := Int.mul_nonpos_of_nonneg_of_nonpos (by omega) (by omega)
    omega
  obtain ⟨-, hfast, hslow⟩ := intervalUs_bounds hrate
  have hpos : 0 < rate := by omega
  refine ⟨hrate, le_antisymm ?_ ?_⟩
  · have hlt := Int.lt_of_mul_lt_mul_right (hnotSlower.trans_le hfast) hpos.le
    omega
  · have hlt := Int.lt_of_mul_lt_mul_right (hslow.trans_le hnotFaster) hpos.le
    omega

end pause

section builder

variable {host : Host} {limits : WorkloadLimits} {dstIp floodType binary : PyStr}
  {port count rate : Int} {kind : FloodType} {cmd : List PyStr}

theorem mem_floodTypes {name : PyStr} :
    name ∈ ["syn".toList, "icmp".toList, "udp".toList] ↔ ∃ kind : FloodType, name = kind.text := by
  constructor
  · intro h
    simp only [List.mem_cons, List.not_mem_nil, or_false] at h
    rcases h with rfl | rfl | rfl
    · exact ⟨.syn, rfl⟩
    · exact ⟨.icmp, rfl⟩
    · exact ⟨.udp, rfl⟩
  · rintro ⟨kind, rfl⟩
    cases kind <;> simp [FloodType.text]

/-- The membership test of `limits.flood`. -/
theorem knownName_iff {name : PyStr} {names : List PyStr} :
    (¬ (names.all fun known => !(PyValue.str name).isStr known) = true) ↔ name ∈ names := by
  simp only [PyValue.isStr, List.all_eq_true, Bool.not_eq_true', decide_eq_false_iff_not,
    not_forall, not_not, exists_prop, exists_eq_right']

theorem text_eq_icmp : kind.text = "icmp".toList ↔ kind = .icmp := by
  cases kind <;> decide

/-- What `limits.flood` lets pass. -/
theorem flood_ok_iff :
    limits.flood (.str floodType) (.int port) (.int count) (.int rate) = .ok () ↔
      ∃ kind : FloodType, floodType = kind.text ∧
        ((if kind = .icmp then 0 else 1) ≤ port ∧ port ≤ 65535) ∧
        (1 ≤ count ∧ count ≤ limits.maxPackets) ∧ (1 ≤ rate ∧ rate ≤ limits.maxRatePps) ∧
        count * WorkloadLimits.intervalUs rate ≤ limits.maxDurationS * 1000000 := by
  have hhashable : ¬ (PyValue.str floodType).hashable = false := Bool.noConfusion
  unfold WorkloadLimits.flood
  rw [raiseIf_of_not hhashable, ok_bind, seq_ok_iff, raiseIf_ok_iff, knownName_iff,
    mem_floodTypes, ← exists_and_right]
  refine exists_congr fun kind => and_congr_right fun htext => ?_
  have hicmp : (PyValue.str floodType).isStr "icmp".toList = true ↔ kind = .icmp := by
    rw [htext, ← text_eq_icmp]
    exact decide_eq_true_iff
  simp only [boundedInt_bind_ok_iff, raiseIf_ok_iff, gt_iff_lt, Int.not_lt, hicmp]

@[simp] theorem Host.lower_text : host.lower kind.text = kind.text := by
  cases kind <;> rfl

theorem strInt_ok_iff {n : Int} {text : PyStr} : strInt n = .ok text ↔
    (Nat.toDigits 10 n.natAbs).length ≤ maxStrDigits ∧ text = intText n := by
  unfold strInt
  split
  · rename_i hlen
    simp [hlen, eq_comm]
  · rename_i hlen
    simp [hlen]

theorem floodOptions_ok {options : List PyStr}
    (h : floodOptions host kind.text port = .ok options) : options = kind.options port := by
  unfold floodOptions at h
  rw [Host.lower_text] at h
  cases kind with
  | syn =>
      obtain ⟨text, htext, hoptions⟩ := bind_ok_iff.mp h
      obtain ⟨-, rfl⟩ := strInt_ok_iff.mp htext
      cases hoptions
      rfl
  | icmp =>
      cases h
      rfl
  | udp =>
      obtain ⟨text, htext, hoptions⟩ := bind_ok_iff.mp h
      obtain ⟨-, rfl⟩ := strInt_ok_iff.mp htext
      cases hoptions
      rfl

/-- What passes the checks keeps to the ceilings. -/
theorem keepsTo_intervalUs (hport : (if kind = .icmp then 0 else 1) ≤ port ∧ port ≤ 65535)
    (hcount : count ≤ limits.maxPackets) (hrate : 1 ≤ rate ∧ rate ≤ limits.maxRatePps)
    (hpace : count * WorkloadLimits.intervalUs rate ≤ limits.maxDurationS * 1000000) :
    KeepsTo limits kind port count rate (WorkloadLimits.intervalUs rate) := by
  obtain ⟨hpos, hfast, hslow⟩ := intervalUs_bounds hrate.1
  refine ⟨hcount, hrate.2, hpos, hfast, hslow, hpace, fun hkind => ?_⟩
  rwa [if_neg hkind] at hport

/-- The arguments, put together. -/
theorem hping3Args_ok (h : hping3Args host binary dstIp kind.text port count rate = .ok cmd) :
    cmd = [binary, "-c".toList, intText count, "-i".toList,
      'u' :: intText (WorkloadLimits.intervalUs rate)] ++ kind.options port ++ [dstIp] := by
  unfold hping3Args at h
  obtain ⟨packets, hpackets, h⟩ := bind_ok_iff.mp h
  obtain ⟨interval, hinterval, h⟩ := bind_ok_iff.mp h
  obtain ⟨options, hoptions, h⟩ := bind_ok_iff.mp h
  obtain ⟨-, rfl⟩ := strInt_ok_iff.mp hpackets
  obtain ⟨-, rfl⟩ := strInt_ok_iff.mp hinterval
  rw [floodOptions_ok hoptions] at h
  cases h
  rfl

/-- What raises in front of the lookup is a `ValueError`. -/
theorem flood_error {e : PyErr}
    (h : limits.flood (.str floodType) (.int port) (.int count) (.int rate) = .error e) :
    ∃ message, e = .valueError message := by
  have hhashable : ¬ (PyValue.str floodType).hashable = false := Bool.noConfusion
  unfold WorkloadLimits.flood at h
  rw [raiseIf_of_not hhashable, ok_bind] at h
  rcases bind_error_iff.mp h with htype | ⟨_, _, h⟩
  · exact ⟨_, (raiseIf_error_iff.mp htype).2⟩
  rcases bind_error_iff.mp h with hport | ⟨_, _, h⟩
  · exact boundedInt_error hport
  rcases bind_error_iff.mp h with hcount | ⟨_, _, h⟩
  · exact boundedInt_error hcount
  rcases bind_error_iff.mp h with hrate | ⟨_, _, hpace⟩
  · exact boundedInt_error hrate
  · exact ⟨_, (raiseIf_error_iff.mp hpace).2⟩

theorem build_of_flood_error {e : PyErr}
    (h : limits.flood (.str (host.lower floodType)) (.int port) (.int count) (.int rate) =
      .error e) :
    buildHping3FloodCmd host limits dstIp floodType port count rate = ⟨[], .error e⟩ := by
  unfold buildHping3FloodCmd
  simp only [h]

/-- A flood that cannot keep to the ceilings is refused in front of the lookup. -/
theorem build_refused
    (h : ¬ ∃ kind pause, host.lower floodType = FloodType.text kind ∧
      KeepsTo limits kind port count rate pause) :
    (buildHping3FloodCmd host limits dstIp floodType port count rate).lookedUp = [] ∧
      ∃ message, (buildHping3FloodCmd host limits dstIp floodType port count rate).result =
        .error (.valueError message) := by
  cases hflood : limits.flood (.str (host.lower floodType)) (.int port) (.int count)
      (.int rate) with
  | error e =>
      obtain ⟨message, rfl⟩ := flood_error hflood
      rw [build_of_flood_error hflood]
      exact ⟨rfl, message, rfl⟩
  | ok _ =>
      obtain ⟨kind, htext, hport, hcount, hrate, hpace⟩ := flood_ok_iff.mp hflood
      exact absurd ⟨kind, _, htext, keepsTo_intervalUs hport hcount.2 hrate hpace⟩ h

/-- **Floods keep to the ceilings.** A command that is returned asks for the requested packets
with a pause that keeps to the ceilings, and a flood that cannot is refused with a
`ValueError` before the binary is looked up. -/
theorem flood_cmd (host : Host) (limits : WorkloadLimits) (dstIp floodType : PyStr)
    (port count rate : Int) :
    (∀ cmd, (buildHping3FloodCmd host limits dstIp floodType port count rate).result = .ok cmd →
      ∃ kind binary pause, host.lower floodType = FloodType.text kind ∧
        host.which "hping3".toList = some binary ∧
        cmd = [binary, "-c".toList, intText count, "-i".toList, 'u' :: intText pause] ++
          kind.options port ++ [dstIp] ∧
        KeepsTo limits kind port count rate pause) ∧
    ((¬ ∃ kind pause, host.lower floodType = FloodType.text kind ∧
        KeepsTo limits kind port count rate pause) →
      (buildHping3FloodCmd host limits dstIp floodType port count rate).lookedUp = [] ∧
        ∃ message, (buildHping3FloodCmd host limits dstIp floodType port count rate).result =
          .error (.valueError message)) := by
  refine ⟨fun cmd h => ?_, build_refused⟩
  unfold buildHping3FloodCmd at h
  simp only at h
  split at h
  · cases h
  · rename_i hflood
    obtain ⟨kind, htext, hport, hcount, hrate, hpace⟩ := flood_ok_iff.mp hflood
    obtain ⟨binary, hbinary, hargs⟩ := bind_ok_iff.mp h
    rw [htext] at hargs
    exact ⟨kind, binary, _, htext, orRaise_ok_iff.mp hbinary, hping3Args_ok hargs,
      keepsTo_intervalUs hport hcount.2 hrate hpace⟩

end builder

end SrxProbe.Generators
