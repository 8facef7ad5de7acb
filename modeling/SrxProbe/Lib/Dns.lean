import SrxProbe.Lib.Utf8

/-!
# DNS queries

The reader of a query for one name: a header of twelve bytes, the labels of the name, each
after its length octet, a zero octet, and the type and the class. An octet from 64 on is no
length.
-/

namespace SrxProbe.Lib.Dns

/-- A label that a length octet can announce. -/
def IsLabel (label : Bytes) : Prop := 1 ≤ label.length ∧ label.length ≤ 63

/-- Labels with their length octets. -/
def encodeLabels (labels : List Bytes) : Bytes :=
  labels.flatMap fun label => UInt8.ofNat label.length :: label

/-- The first `n` octets, `none` if there are fewer. -/
def readFixed (n : Nat) (data : Bytes) : Option (Bytes × Bytes) :=
  if n ≤ data.length then some (data.take n, data.drop n) else none

/-- Labels up to the zero octet, and what follows it. A label takes an octet, so as many
turns as octets are enough. -/
def readLabels : Nat → Bytes → Option (List Bytes × Bytes)
  | 0, _ => none
  | _, [] => none
  | n + 1, len :: rest =>
      if len = 0 then some ([], rest)
      else if 63 < len.toNat then none
      else do
        let (label, rest) ← readFixed len.toNat rest
        let (labels, rest) ← readLabels n rest
        return (label :: labels, rest)

def readName (data : Bytes) : Option (List Bytes × Bytes) := readLabels data.length data

/-- A number of two octets, the high one first. -/
def u16 (hi lo : UInt8) : Nat := 256 * hi.toNat + lo.toNat

/-- The header of a message. -/
structure Header where
  id : Nat
  flags : Nat
  qdcount : Nat
  ancount : Nat
  nscount : Nat
  arcount : Nat
  deriving DecidableEq, Repr

/-- A query for one name. -/
structure Query where
  header : Header
  labels : List Bytes
  qtype : Nat
  qclass : Nat
  deriving DecidableEq, Repr

def readHeader : Bytes → Option (Header × Bytes)
  | i₁ :: i₀ :: f₁ :: f₀ :: q₁ :: q₀ :: a₁ :: a₀ :: n₁ :: n₀ :: r₁ :: r₀ :: rest =>
      some (⟨u16 i₁ i₀, u16 f₁ f₀, u16 q₁ q₀, u16 a₁ a₀, u16 n₁ n₀, u16 r₁ r₀⟩, rest)
  | _ => none

/-- The query that all of the data is. -/
def readQuery (data : Bytes) : Option Query := do
  let (header, rest) ← readHeader data
  let (labels, rest) ← readName rest
  match rest with
  | [t₁, t₀, c₁, c₀] => some ⟨header, labels, u16 t₁ t₀, u16 c₁ c₀⟩
  | _ => none

/-! ## Reading what was encoded -/

section labels

variable {label data rest : Bytes} {labels : List Bytes} {n : Nat}

@[simp] theorem encodeLabels_nil : encodeLabels [] = [] := rfl

@[simp] theorem encodeLabels_cons (label : Bytes) (labels : List Bytes) :
    encodeLabels (label :: labels) =
      UInt8.ofNat label.length :: (label ++ encodeLabels labels) := rfl

theorem encodeLabels_append (labels labels' : List Bytes) :
    encodeLabels (labels ++ labels') = encodeLabels labels ++ encodeLabels labels' :=
  List.flatMap_append

theorem readFixed_append (label rest : Bytes) :
    readFixed label.length (label ++ rest) = some (label, rest) := by
  simp [readFixed]

theorem readFixed_sound (h : readFixed n data = some (label, rest)) :
    label.length = n ∧ data = label ++ rest := by
  unfold readFixed at h
  split at h
  · rename_i hlen
    cases h
    exact ⟨List.length_take_of_le hlen, (List.take_append_drop n data).symm⟩
  · cases h

theorem IsLabel.toNat_length (h : IsLabel label) :
    (UInt8.ofNat label.length).toNat = label.length :=
  UInt8.toNat_ofNat_of_lt (h.2.trans_lt (by decide))

theorem IsLabel.length_ne_zero (h : IsLabel label) : UInt8.ofNat label.length ≠ 0 := by
  intro hzero
  have hlen := h.toNat_length
  rw [hzero] at hlen
  exact absurd hlen (Nat.ne_of_lt h.1)

theorem readLabels_encode (h : ∀ label ∈ labels, IsLabel label) (hn : labels.length < n)
    (rest : Bytes) : readLabels n (encodeLabels labels ++ 0 :: rest) = some (labels, rest) := by
  induction labels generalizing n with
  | nil =>
      obtain ⟨n, rfl⟩ := Nat.exists_eq_succ_of_ne_zero (Nat.ne_of_gt hn)
      rfl
  | cons label labels ih =>
      obtain ⟨n, rfl⟩ := Nat.exists_eq_succ_of_ne_zero (Nat.ne_of_gt (Nat.zero_lt_of_lt hn))
      have hlabel := h label List.mem_cons_self
      have hlater := ih (fun l hl => h l (List.mem_cons_of_mem label hl))
        (Nat.lt_of_succ_lt_succ hn)
      rw [encodeLabels_cons, List.cons_append, List.append_assoc, readLabels,
        if_neg hlabel.length_ne_zero, hlabel.toNat_length, if_neg (Nat.not_lt.mpr hlabel.2),
        readFixed_append]
      show (readLabels n (encodeLabels labels ++ 0 :: rest) >>= _) = _
      rw [hlater]
      rfl

/-- What is read was encoded that way. -/
theorem readLabels_sound (h : readLabels n data = some (labels, rest)) :
    data = encodeLabels labels ++ 0 :: rest ∧ ∀ label ∈ labels, IsLabel label := by
  induction n generalizing data labels with
  | zero => cases h
  | succ n ih =>
      cases data with
      | nil => cases h
      | cons len data =>
          rw [readLabels] at h
          split at h
          · rename_i hzero
            cases h
            exact ⟨by rw [hzero]; rfl, fun _ hmem => by cases hmem⟩
          · rename_i hzero
            split at h
            · cases h
            · rename_i hlong
              obtain ⟨⟨label, after⟩, hfixed, h⟩ := Option.bind_eq_some_iff.mp h
              obtain ⟨⟨labels', rest'⟩, hlabels, h⟩ := Option.bind_eq_some_iff.mp h
              cases h
              obtain ⟨hlen, rfl⟩ := readFixed_sound hfixed
              obtain ⟨rfl, hall⟩ := ih hlabels
              have hlabel : IsLabel label := by
                have hpos : len.toNat ≠ 0 := fun hlen0 => hzero (UInt8.toNat.inj hlen0)
                exact ⟨by omega, by omega⟩
              refine ⟨?_, List.forall_mem_cons.mpr ⟨hlabel, hall⟩⟩
              have hoctet : UInt8.ofNat label.length = len := by
                rw [hlen]
                exact UInt8.ofNat_toNat
              rw [encodeLabels_cons, hoctet, List.cons_append, List.append_assoc]

theorem length_le_encodeLabels (labels : List Bytes) :
    labels.length ≤ (encodeLabels labels).length := by
  induction labels with
  | nil => exact Nat.le_refl _
  | cons label labels ih =>
      rw [encodeLabels_cons, List.length_cons, List.length_cons, List.length_append]
      omega

theorem readName_encode (h : ∀ label ∈ labels, IsLabel label) (rest : Bytes) :
    readName (encodeLabels labels ++ 0 :: rest) = some (labels, rest) := by
  refine readLabels_encode h ?_ rest
  have hlen := length_le_encodeLabels labels
  rw [List.length_append, List.length_cons]
  omega

end labels

/-- A query is read as it was encoded. -/
theorem readQuery_encode {header tail : Bytes} {labels : List Bytes} {h : Header}
    {t₁ t₀ c₁ c₀ : UInt8} (hheader : ∀ rest, readHeader (header ++ rest) = some (h, rest))
    (htail : tail = [t₁, t₀, c₁, c₀]) (hall : ∀ label ∈ labels, IsLabel label) :
    readQuery (header ++ (encodeLabels labels ++ 0 :: tail)) =
      some ⟨h, labels, u16 t₁ t₀, u16 c₁ c₀⟩ := by
  subst htail
  rw [readQuery, hheader, Option.bind_eq_bind, Option.bind_some]
  show (readName (encodeLabels labels ++ 0 :: [t₁, t₀, c₁, c₀]) >>= _) = _
  rw [readName_encode hall]
  rfl

/-- The labels of a query fill the data between the header and the last four octets. -/
theorem readQuery_sound {data : Bytes} {query : Query} (h : readQuery data = some query) :
    (∃ header tail, header.length = 12 ∧ tail.length = 4 ∧
      data = header ++ (encodeLabels query.labels ++ 0 :: tail)) ∧
    ∀ label ∈ query.labels, IsLabel label := by
  obtain ⟨⟨header, rest⟩, hheader, h⟩ := Option.bind_eq_some_iff.mp h
  obtain ⟨⟨labels, tail⟩, hname, h⟩ := Option.bind_eq_some_iff.mp h
  simp only at h
  split at h
  · rename_i t₁ t₀ c₁ c₀
    cases h
    obtain ⟨rfl, hall⟩ := readLabels_sound hname
    refine ⟨?_, hall⟩
    unfold readHeader at hheader
    split at hheader
    · rename_i i₁ i₀ f₁ f₀ q₁ q₀ a₁ a₀ n₁ n₀ r₁ r₀ rest
      cases hheader
      exact ⟨[i₁, i₀, f₁, f₀, q₁, q₀, a₁, a₀, n₁, n₀, r₁, r₀], [t₁, t₀, c₁, c₀], rfl, rfl, rfl⟩
    · cases hheader
  · cases h

end SrxProbe.Lib.Dns
