import SrxProbe.Deploy.Preflight

/-!
# Overlapping fragments

The fragments that the fragmentation workload sends. The offsets grow with their number, and
the ceiling on that number has no maximum of its own: from 1365 fragments on the last one
ends beyond what an IPv4 packet can hold.
-/

namespace SrxProbe.Generators

open SrxProbe.Lib SrxProbe.Deploy

/-! ## The fragments -/

/-- A fragment with a TCP header in front of its payload. The offset counts eight bytes. -/
structure Fragment where
  src : PyStr
  dst : PyStr
  moreFragments : Bool
  offset : Int
  sport : Int
  dport : Int
  payload : Bytes
  deriving DecidableEq, Repr

/-- The bytes of a TCP header without options. -/
def tcpHeaderLength : Int := 20

namespace Fragment

/-- The first byte of the packet that is put together which the fragment has. -/
def first (f : Fragment) : Int := 8 * f.offset

/-- The byte behind the last one. -/
def stop (f : Fragment) : Int := f.first + tcpHeaderLength + f.payload.length

end Fragment

/-- A turn of the loop of `overlapping_fragments`. -/
def fragment (srcIp dstIp : PyStr) (sport dstPort fragCount : Int) (i : Nat) : Fragment where
  src := srcIp
  dst := dstIp
  moreFragments := i < fragCount - 1
  -- each advances by less than the length of the one before
  offset := max 0 ((i : Int) * 6 - 2)
  sport := sport
  dport := dstPort
  payload := List.replicate 64 (UInt8.ofNat 'X'.toNat)

/-- The fragments that `overlapping_fragments` sends. -/
def overlappingFragments (srcIp dstIp : PyStr) (sport dstPort fragCount : Int) :
    List Fragment :=
  (List.range fragCount.toNat).map (fragment srcIp dstIp sport dstPort fragCount)

/-! ## Fragments of one packet -/

/-- Fragments in order that overlap and fit an IPv4 packet and the thirteen bits of its
offset field, the last marked as such. -/
structure Encodable (frags : List Fragment) : Prop where
  nonempty : frags ≠ []
  increasing : frags.Pairwise fun f g => f.offset < g.offset
  field : ∀ f ∈ frags, 0 ≤ f.offset ∧ f.offset < 8192
  total : ∀ f ∈ frags, f.stop ≤ 65535
  overlap : ∀ i f g, frags[i]? = some f → frags[i + 1]? = some g →
    ∃ byte, (f.first ≤ byte ∧ byte < f.stop) ∧ (g.first ≤ byte ∧ byte < g.stop)
  last : ∀ i f, frags[i]? = some f → (f.moreFragments = false ↔ i + 1 = frags.length)

section encodable

variable {srcIp dstIp : PyStr} {sport dstPort fragCount : Int}

@[simp] theorem fragment_offset (i : Nat) :
    (fragment srcIp dstIp sport dstPort fragCount i).offset = max 0 ((i : Int) * 6 - 2) :=
  rfl

@[simp] theorem fragment_first (i : Nat) :
    (fragment srcIp dstIp sport dstPort fragCount i).first = 8 * max 0 ((i : Int) * 6 - 2) :=
  rfl

@[simp] theorem fragment_stop (i : Nat) :
    (fragment srcIp dstIp sport dstPort fragCount i).stop =
      8 * max 0 ((i : Int) * 6 - 2) + 20 + 64 :=
  rfl

theorem fragment_moreFragments (i : Nat) :
    (fragment srcIp dstIp sport dstPort fragCount i).moreFragments = false ↔
      fragCount - 1 ≤ i := by
  simp [fragment]

@[simp] theorem length_overlappingFragments :
    (overlappingFragments srcIp dstIp sport dstPort fragCount).length = fragCount.toNat := by
  simp [overlappingFragments]

theorem mem_overlappingFragments {f : Fragment} :
    f ∈ overlappingFragments srcIp dstIp sport dstPort fragCount ↔
      ∃ i : Nat, i < fragCount.toNat ∧ fragment srcIp dstIp sport dstPort fragCount i = f := by
  simp [overlappingFragments]

theorem getElem?_overlappingFragments {i : Nat} {f : Fragment} :
    (overlappingFragments srcIp dstIp sport dstPort fragCount)[i]? = some f ↔
      i < fragCount.toNat ∧ fragment srcIp dstIp sport dstPort fragCount i = f := by
  rw [overlappingFragments, List.getElem?_map, Option.map_eq_some_iff]
  constructor
  · rintro ⟨j, hj, rfl⟩
    obtain ⟨hi, hij⟩ := List.getElem?_eq_some_iff.mp hj
    rw [List.getElem_range] at hij
    rw [List.length_range] at hi
    exact ⟨hi, by rw [hij]⟩
  · rintro ⟨hi, rfl⟩
    exact ⟨i, List.getElem?_range hi, rfl⟩

/-- The offsets of later fragments are larger, however many there are. -/
theorem fragments_increasing :
    (overlappingFragments srcIp dstIp sport dstPort fragCount).Pairwise
      fun f g => f.offset < g.offset := by
  refine List.pairwise_map.mpr (List.pairwise_lt_range.imp fun {i j} hij => ?_)
  rw [fragment_offset, fragment_offset]
  omega

/-- A fragment starts before the one in front of it stops. -/
theorem fragments_overlap (i : Nat) :
    ∃ byte, ((fragment srcIp dstIp sport dstPort fragCount i).first ≤ byte ∧
        byte < (fragment srcIp dstIp sport dstPort fragCount i).stop) ∧
      ((fragment srcIp dstIp sport dstPort fragCount (i + 1)).first ≤ byte ∧
        byte < (fragment srcIp dstIp sport dstPort fragCount (i + 1)).stop) := by
  refine ⟨(fragment srcIp dstIp sport dstPort fragCount (i + 1)).first, ?_⟩
  simp only [fragment_first, fragment_stop]
  omega

/-- The last of more than 1364 fragments does not fit. -/
theorem encodable_iff (hcount : 1 ≤ fragCount) :
    Encodable (overlappingFragments srcIp dstIp sport dstPort fragCount) ↔ fragCount ≤ 1364 := by
  constructor
  · intro h
    have hlast : fragCount.toNat - 1 < fragCount.toNat := by omega
    have htotal := h.total _ (mem_overlappingFragments.mpr ⟨_, hlast, rfl⟩)
    rw [fragment_stop] at htotal
    omega
  · intro hfit
    refine ⟨?_, fragments_increasing, ?_, ?_, ?_, ?_⟩
    · intro hnil
      have hlen := congrArg List.length hnil
      rw [length_overlappingFragments, List.length_nil] at hlen
      omega
    · intro f hf
      obtain ⟨i, hi, rfl⟩ := mem_overlappingFragments.mp hf
      rw [fragment_offset]
      omega
    · intro f hf
      obtain ⟨i, hi, rfl⟩ := mem_overlappingFragments.mp hf
      rw [fragment_stop]
      omega
    · intro i f g hf hg
      obtain ⟨-, rfl⟩ := getElem?_overlappingFragments.mp hf
      obtain ⟨-, rfl⟩ := getElem?_overlappingFragments.mp hg
      exact fragments_overlap i
    · intro i f hf
      obtain ⟨hi, rfl⟩ := getElem?_overlappingFragments.mp hf
      rw [fragment_moreFragments, length_overlappingFragments]
      omega

end encodable

/-! ## What is accepted -/

/-- The number of fragments that passes is an integer of at least one. -/
theorem count_of_validateArgs {a : Namespace} (h : validateArgs a .frag = .ok ()) :
    ∃ count, a.attrs "count".toList = some (.int count) ∧ 1 ≤ count ∧
      count ≤ a.limitsOf.maxFragments := by
  unfold validateArgs at h
  obtain ⟨-, h⟩ := seq_ok_iff.mp h
  obtain ⟨value, hvalue, h⟩ := bind_ok_iff.mp h
  obtain ⟨count, hcount, -⟩ := bind_ok_iff.mp h
  rw [Namespace.attr, orRaise_ok_iff] at hvalue
  cases value with
  | int n => exact ⟨n, hvalue, boundedInt_ok_iff.mp ⟨count, hcount⟩⟩
  | _ => cases hcount

/-- **Fragments.** A number of fragments that is accepted gives encodable fragments exactly
if it is at most 1364. -/
theorem fragments_encodable_iff {a : Namespace} (h : validateArgs a .frag = .ok ()) :
    ∃ count, a.attrs "count".toList = some (.int count) ∧
      ∀ srcIp dstIp sport dstPort,
        Encodable (overlappingFragments srcIp dstIp sport dstPort count) ↔ count ≤ 1364 := by
  obtain ⟨count, hattr, hcount, -⟩ := count_of_validateArgs h
  exact ⟨count, hattr, fun _ _ _ _ => encodable_iff hcount⟩

theorem fragments_encodable_default :
    ∃ a, parseArgs ["--target".toList, "192.0.2.1".toList, "frag".toList] = .ok a ∧
      Encodable (overlappingFragments "192.0.2.9".toList "192.0.2.1".toList 50000 80 8) := by
  have hparsed : ∃ a, parseArgs ["--target".toList, "192.0.2.1".toList, "frag".toList] = .ok a ∧
      validateArgs a .frag = .ok () ∧ a.attrs "count".toList = some (.int 8) :=
    ⟨_, rfl, by decide +kernel, rfl⟩
  obtain ⟨a, hparse, hvalid, hattr⟩ := hparsed
  obtain ⟨count, hcount, hiff⟩ := fragments_encodable_iff hvalid
  obtain rfl : 8 = count := by
    rw [hattr] at hcount
    cases hcount
    rfl
  exact ⟨a, hparse, (hiff _ _ _ _).mpr (by decide)⟩

/-- Under a raised ceiling, 1500 fragments reach beyond the packet and its offset field. -/
theorem fragments_beyond_the_packet :
    ∃ a, parseArgs ["--target".toList, "192.0.2.1".toList, "--limit-fragments".toList,
        "2000".toList, "frag".toList, "--count".toList, "1500".toList] = .ok a ∧
      validateArgs a .frag = .ok () ∧ a.attrs "count".toList = some (.int 1500) ∧
      ¬ Encodable (overlappingFragments "192.0.2.9".toList "192.0.2.1".toList 50000 80 1500) := by
  refine ⟨_, rfl, by decide +kernel, rfl, fun h => ?_⟩
  have hle := (encodable_iff (by decide)).mp h
  exact absurd hle (by decide)

end SrxProbe.Generators
