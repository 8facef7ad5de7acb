import SrxProbe.Lib.Py

/-!
# UTF-8

Encoding, and decoding with replacement: every maximal part of the bytes that
cannot become a character is read as one U+FFFD. The decoder is a transducer that
holds at most one unfinished character.
-/

namespace SrxProbe.Lib

/-- `bytes`. -/
abbrev Bytes := List UInt8

/-- `s.encode("utf-8")`. -/
def encodeUtf8 (s : PyStr) : Bytes := s.flatMap String.utf8EncodeChar

namespace Utf8

/-- An unfinished character: how many bytes it still needs, its bits so far, and
the range the next byte has to be in. -/
structure Pending where
  needed : Nat
  point : Nat
  lower : Nat
  upper : Nat
  deriving DecidableEq, Repr

def replacement : Char := Char.ofNat 0xFFFD

/-- A byte where a character has to begin: what it yields, and what it begins. -/
def start (b : UInt8) : List Char × Option Pending :=
  let n := b.toNat
  if n < 0x80 then ([Char.ofNat n], none)
  else if n < 0xC2 then ([replacement], none)
  else if n < 0xE0 then ([], some ⟨1, n - 0xC0, 0x80, 0xBF⟩)
  -- no overlong form and no surrogate
  else if n = 0xE0 then ([], some ⟨2, 0, 0xA0, 0xBF⟩)
  else if n = 0xED then ([], some ⟨2, 0x0D, 0x80, 0x9F⟩)
  else if n < 0xF0 then ([], some ⟨2, n - 0xE0, 0x80, 0xBF⟩)
  else if n = 0xF0 then ([], some ⟨3, 0, 0x90, 0xBF⟩)
  else if n < 0xF4 then ([], some ⟨3, n - 0xF0, 0x80, 0xBF⟩)
  else if n = 0xF4 then ([], some ⟨3, 4, 0x80, 0x8F⟩)
  else ([replacement], none)

/-- One byte. A byte that does not continue the pending character ends it, and is
read again as a beginning. -/
def feed : Option Pending → UInt8 → List Char × Option Pending
  | none, b => start b
  | some p, b =>
      let n := b.toNat
      if p.lower ≤ n ∧ n ≤ p.upper then
        let point := 64 * p.point + (n - 0x80)
        if p.needed ≤ 1 then ([Char.ofNat point], none)
        else ([], some ⟨p.needed - 1, point, 0x80, 0xBF⟩)
      else (replacement :: (start b).1, (start b).2)

def decodeFrom : Option Pending → Bytes → List Char
  | none, [] => []
  | some _, [] => [replacement]
  | pending, b :: rest => (feed pending b).1 ++ decodeFrom (feed pending b).2 rest

end Utf8

/-- `data.decode("utf-8", errors="replace")`. -/
def decodeUtf8 (data : Bytes) : PyStr := Utf8.decodeFrom none data

/-! ## Round trip -/

namespace Utf8

theorem decodeFrom_cons (pending : Option Pending) (b : UInt8) (rest : Bytes) :
    decodeFrom pending (b :: rest) =
      (feed pending b).1 ++ decodeFrom (feed pending b).2 rest := by
  cases pending <;> rfl

/-- A byte in the range of the pending character, with more to come. -/
theorem decodeFrom_continue {p : Pending} {b : UInt8} (hlower : p.lower ≤ b.toNat)
    (hupper : b.toNat ≤ p.upper) (hneeded : 1 < p.needed) (rest : Bytes) :
    decodeFrom (some p) (b :: rest) =
      decodeFrom (some ⟨p.needed - 1, 64 * p.point + (b.toNat - 0x80), 0x80, 0xBF⟩) rest := by
  rw [decodeFrom_cons, feed, if_pos ⟨hlower, hupper⟩, if_neg (Nat.not_le.mpr hneeded)]
  rfl

/-- The last byte of the pending character. -/
theorem decodeFrom_finish {p : Pending} {b : UInt8} (hlower : p.lower ≤ b.toNat)
    (hupper : b.toNat ≤ p.upper) (hneeded : p.needed = 1) (rest : Bytes) :
    decodeFrom (some p) (b :: rest) =
      Char.ofNat (64 * p.point + (b.toNat - 0x80)) :: decodeFrom none rest := by
  rw [decodeFrom_cons, feed, if_pos ⟨hlower, hupper⟩, if_pos (Nat.le_of_eq hneeded)]
  rfl

/-- A byte that begins a character and yields nothing yet. -/
theorem decodeFrom_lead {b : UInt8} {p : Pending} (h : start b = ([], some p)) (rest : Bytes) :
    decodeFrom none (b :: rest) = decodeFrom (some p) rest := by
  rw [decodeFrom_cons, feed, h]
  rfl

theorem toNat_ofNat_of_lt {n : Nat} (h : n < 256) : (UInt8.ofNat n).toNat = n :=
  UInt8.toNat_ofNat_of_lt' h

/-- The lead bytes of the well-formed sequences, with the range each sets for the
byte behind it. -/
theorem start_two {n : Nat} (h : 0xC2 ≤ n) (h' : n < 0xE0) :
    start (UInt8.ofNat n) = ([], some ⟨1, n - 0xC0, 0x80, 0xBF⟩) := by
  have hn : (UInt8.ofNat n).toNat = n := toNat_ofNat_of_lt (by omega)
  unfold start
  rw [hn]
  dsimp only
  rw [if_neg (by omega), if_neg (by omega), if_pos h']

theorem start_three {q m : Nat} (hq : q < 16) (hm : m < 64) (hzero : q = 0 → 0x20 ≤ m)
    (hsurrogate : q = 13 → m < 0x20) :
    ∃ lower upper, start (UInt8.ofNat (q + 0xE0)) = ([], some ⟨2, q, lower, upper⟩) ∧
      lower ≤ m + 0x80 ∧ m + 0x80 ≤ upper := by
  have hn : (UInt8.ofNat (q + 0xE0)).toNat = q + 0xE0 :=
    toNat_ofNat_of_lt (by omega)
  unfold start
  rw [hn]
  dsimp only
  rw [if_neg (by omega), if_neg (by omega), if_neg (by omega)]
  by_cases h0 : q = 0
  · subst h0
    exact ⟨0xA0, 0xBF, rfl, by have := hzero rfl; omega, by omega⟩
  · rw [if_neg (by omega)]
    by_cases h13 : q = 13
    · subst h13
      exact ⟨0x80, 0x9F, rfl, by omega, by have := hsurrogate rfl; omega⟩
    · rw [if_neg (by omega), if_pos (by omega), Nat.add_sub_cancel]
      exact ⟨0x80, 0xBF, rfl, by omega, by omega⟩

theorem start_four {q m : Nat} (hq : q < 5) (hm : m < 64) (hzero : q = 0 → 0x10 ≤ m)
    (hlast : q = 4 → m < 0x10) :
    ∃ lower upper, start (UInt8.ofNat (q + 0xF0)) = ([], some ⟨3, q, lower, upper⟩) ∧
      lower ≤ m + 0x80 ∧ m + 0x80 ≤ upper := by
  have hn : (UInt8.ofNat (q + 0xF0)).toNat = q + 0xF0 :=
    toNat_ofNat_of_lt (by omega)
  unfold start
  rw [hn]
  dsimp only
  rw [if_neg (by omega), if_neg (by omega), if_neg (by omega), if_neg (by omega),
    if_neg (by omega), if_neg (by omega)]
  by_cases h0 : q = 0
  · subst h0
    exact ⟨0x90, 0xBF, rfl, by have := hzero rfl; omega, by omega⟩
  · rw [if_neg (by omega)]
    by_cases h4 : q = 4
    · subst h4
      exact ⟨0x80, 0x8F, rfl, by omega, by have := hlast rfl; omega⟩
    · rw [if_pos (by omega), Nat.add_sub_cancel]
      exact ⟨0x80, 0xBF, rfl, by omega, by omega⟩

/-- A continuation byte carries six bits. -/
theorem toNat_tail {m : Nat} (h : m < 64) : (UInt8.ofNat (m + 0x80)).toNat = m + 0x80 :=
  toNat_ofNat_of_lt (by omega)

theorem decodeFrom_tail_continue {needed point lower upper m : Nat} (h : m < 64)
    (hlower : lower ≤ m + 0x80) (hupper : m + 0x80 ≤ upper) (hneeded : 1 < needed)
    (rest : Bytes) :
    decodeFrom (some ⟨needed, point, lower, upper⟩) (UInt8.ofNat (m + 0x80) :: rest) =
      decodeFrom (some ⟨needed - 1, 64 * point + m, 0x80, 0xBF⟩) rest := by
  have hn := toNat_tail h
  rw [decodeFrom_continue (by rwa [hn]) (by rwa [hn]) hneeded, hn, Nat.add_sub_cancel]

theorem decodeFrom_tail_finish {point lower upper m : Nat} (h : m < 64)
    (hlower : lower ≤ m + 0x80) (hupper : m + 0x80 ≤ upper) (rest : Bytes) :
    decodeFrom (some ⟨1, point, lower, upper⟩) (UInt8.ofNat (m + 0x80) :: rest) =
      Char.ofNat (64 * point + m) :: decodeFrom none rest := by
  have hn := toNat_tail h
  rw [decodeFrom_finish (by rwa [hn]) (by rwa [hn]) rfl, hn, Nat.add_sub_cancel]

/-- A code point is below 0x110000 and no surrogate. -/
theorem toNat_valid (c : Char) : c.toNat < 0xD800 ∨ 0xDFFF < c.toNat ∧ c.toNat < 0x110000 := c.valid

theorem decodeFrom_encodeChar (c : Char) (rest : Bytes) :
    decodeFrom none (String.utf8EncodeChar c ++ rest) = c :: decodeFrom none rest := by
  have hvalid := toNat_valid c
  have hchar := Char.ofNat_toNat c
  unfold String.utf8EncodeChar
  rw [show c.val.toNat = c.toNat from rfl]
  generalize c.toNat = n at *
  dsimp only
  by_cases h1 : n ≤ 0x7F
  · rw [if_pos h1]
    have hn : (UInt8.ofNat n).toNat = n := toNat_ofNat_of_lt (by omega)
    rw [List.singleton_append, decodeFrom_cons, feed, start, hn, if_pos (by omega), hchar]
    rfl
  · rw [if_neg h1]
    by_cases h2 : n ≤ 0x7FF
    · rw [if_pos h2, Nat.mod_eq_of_lt (by omega)]
      rw [List.cons_append, List.cons_append, List.nil_append,
        decodeFrom_lead (start_two (by omega) (by omega)),
        decodeFrom_tail_finish (by omega) (by omega) (by omega)]
      rw [show 64 * (n / 64 + 0xC0 - 0xC0) + n % 64 = n by omega, hchar]
    · rw [if_neg h2]
      by_cases h3 : n ≤ 0xFFFF
      · rw [if_pos h3, Nat.mod_eq_of_lt (show n / 4096 < 16 by omega)]
        obtain ⟨lower, upper, hstart, hlower, hupper⟩ :=
          start_three (q := n / 4096) (m := n / 64 % 64) (by omega) (by omega) (by omega)
            (by omega)
        rw [List.cons_append, List.cons_append, List.cons_append, List.nil_append,
          decodeFrom_lead hstart, decodeFrom_tail_continue (by omega) hlower hupper (by omega),
          decodeFrom_tail_finish (by omega) (by omega) (by omega)]
        rw [show 64 * (64 * (n / 4096) + n / 64 % 64) + n % 64 = n by omega, hchar]
      · rw [if_neg h3, Nat.mod_eq_of_lt (show n / 262144 < 8 by omega)]
        obtain ⟨lower, upper, hstart, hlower, hupper⟩ :=
          start_four (q := n / 262144) (m := n / 4096 % 64) (by omega) (by omega) (by omega)
            (by omega)
        rw [List.cons_append, List.cons_append, List.cons_append, List.cons_append,
          List.nil_append, decodeFrom_lead hstart,
          decodeFrom_tail_continue (by omega) hlower hupper (by omega),
          decodeFrom_tail_continue (by omega) (by omega) (by omega) (by omega),
          decodeFrom_tail_finish (by omega) (by omega) (by omega)]
        rw [show 64 * (64 * (64 * (n / 262144) + n / 4096 % 64) + n / 64 % 64) + n % 64 = n by
          omega, hchar]

end Utf8

/-- Decoding undoes encoding. -/
theorem decodeUtf8_encodeUtf8 (s : PyStr) : decodeUtf8 (encodeUtf8 s) = s := by
  unfold decodeUtf8 encodeUtf8
  induction s with
  | nil => rfl
  | cons c s ih => rw [List.flatMap_cons, Utf8.decodeFrom_encodeChar, ih]

/-- An ASCII byte stands only for its own character. -/
theorem mem_of_mem_encodeUtf8 {s : PyStr} {b : UInt8} (hascii : b.toNat < 0x80)
    (h : b ∈ encodeUtf8 s) : Char.ofNat b.toNat ∈ s := by
  obtain ⟨c, hc, hb⟩ := List.mem_flatMap.mp h
  have hchar := Char.ofNat_toNat c
  have hvalid := Utf8.toNat_valid c
  -- every other byte has its high bit set
  have hhigh : ∀ m k, b = UInt8.ofNat (m + k) → 0x80 ≤ k → ¬ m + k < 256 := by
    rintro m k rfl hk hlt
    rw [Utf8.toNat_ofNat_of_lt hlt] at hascii
    omega
  unfold String.utf8EncodeChar at hb
  rw [show c.val.toNat = c.toNat from rfl] at hb
  dsimp only at hb
  split at hb
  · rw [List.mem_singleton.mp hb, Utf8.toNat_ofNat_of_lt (by omega), hchar]
    exact hc
  · exfalso
    split at hb
    · simp only [List.mem_cons, List.not_mem_nil, or_false] at hb
      rcases hb with hb | hb <;> exact hhigh _ _ hb (by omega) (by omega)
    · split at hb
      · simp only [List.mem_cons, List.not_mem_nil, or_false] at hb
        rcases hb with hb | hb | hb <;> exact hhigh _ _ hb (by omega) (by omega)
      · simp only [List.mem_cons, List.not_mem_nil, or_false] at hb
        rcases hb with hb | hb | hb | hb <;> exact hhigh _ _ hb (by omega) (by omega)

/-! ## A trailing ASCII byte -/

namespace Utf8

/-- A pending character waits for a byte that is not ASCII. -/
def Waiting (pending : Option Pending) : Prop := ∀ p ∈ pending, 0x80 ≤ p.lower

theorem waiting_none : Waiting none := by
  intro p hp
  cases hp

theorem waiting_some {p : Pending} (h : 0x80 ≤ p.lower) : Waiting (some p) := by
  rintro q ⟨⟩
  exact h

theorem waiting_start (b : UInt8) : Waiting (start b).2 := by
  unfold start
  simp only
  repeat' split
  all_goals first | exact waiting_none | exact waiting_some (by simp)

theorem waiting_feed (pending : Option Pending) (b : UInt8) : Waiting (feed pending b).2 := by
  cases pending with
  | none => exact waiting_start b
  | some p =>
      unfold feed
      simp only
      split
      · split
        · exact waiting_none
        · exact waiting_some (by simp)
      · exact waiting_start b

theorem decodeFrom_ascii {pending : Option Pending} (hp : Waiting pending) {b : UInt8}
    (h : b.toNat < 0x80) (rest : Bytes) :
    decodeFrom pending (b :: rest) =
      decodeFrom pending [] ++ Char.ofNat b.toNat :: decodeFrom none rest := by
  have hstart : start b = ([Char.ofNat b.toNat], none) := by
    unfold start
    simp only
    rw [if_pos h]
  cases pending with
  | none =>
      rw [decodeFrom_cons, feed, hstart]
      rfl
  | some p =>
      have hlower : ¬ (p.lower ≤ b.toNat ∧ b.toNat ≤ p.upper) := by
        have := hp p rfl
        omega
      rw [decodeFrom_cons, feed, if_neg hlower, hstart]
      rfl

theorem decodeFrom_append_ascii {b : UInt8} (h : b.toNat < 0x80) (bs rest : Bytes) :
    ∀ {pending : Option Pending}, Waiting pending → decodeFrom pending (bs ++ b :: rest) =
      decodeFrom pending bs ++ Char.ofNat b.toNat :: decodeFrom none rest := by
  induction bs with
  | nil => exact fun hp => decodeFrom_ascii hp h rest
  | cons c bs ih =>
      intro pending _
      rw [List.cons_append, decodeFrom_cons, decodeFrom_cons, ih (waiting_feed pending c),
        List.append_assoc]

end Utf8

/-- An ASCII byte is decoded on its own, and cuts the bytes in two. -/
theorem decodeUtf8_append_ascii {b : UInt8} (h : b.toNat < 0x80) (bs rest : Bytes) :
    decodeUtf8 (bs ++ b :: rest) = decodeUtf8 bs ++ Char.ofNat b.toNat :: decodeUtf8 rest :=
  Utf8.decodeFrom_append_ascii h bs rest Utf8.waiting_none

/-! ## A part of the bytes -/

namespace Utf8

/-- The beginning of the bytes is decoded alike, but for a character cut short, which is
replaced. -/
theorem prefix_decodeFrom (pending : Option Pending) (bs rest : Bytes) :
    ∃ text tail, decodeFrom pending bs = text ++ tail ∧ (tail = [] ∨ tail = [replacement]) ∧
      text <+: decodeFrom pending (bs ++ rest) := by
  induction bs generalizing pending with
  | nil =>
      cases pending with
      | none => exact ⟨[], [], rfl, .inl rfl, List.nil_prefix⟩
      | some p => exact ⟨[], [replacement], rfl, .inr rfl, List.nil_prefix⟩
  | cons b bs ih =>
      obtain ⟨text, tail, hdecode, htail, hprefix⟩ := ih (feed pending b).2
      refine ⟨(feed pending b).1 ++ text, tail, ?_, htail, ?_⟩
      · rw [decodeFrom_cons, hdecode, List.append_assoc]
      · rw [List.cons_append, decodeFrom_cons]
        exact (List.prefix_append_right_inj _).mpr hprefix

end Utf8

end SrxProbe.Lib
