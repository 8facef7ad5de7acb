import SrxProbe.Lib.IpText
import SrxProbe.Lib.Utf8

/-!
# JSON strings

The text `json.dumps` prints for a string, all of it in printable ASCII, and its reading
by `json.loads`. A character outside the basic plane is printed as two escaped surrogates,
which the reader joins again.
-/

namespace SrxProbe.Lib.Json

/-- `'\\u{0:04x}'`, of a number below 0x10000. -/
def escapeUnit (n : Nat) : PyStr :=
  ['\\', 'u', Nat.digitChar (n / 4096), Nat.digitChar (n / 256 % 16),
    Nat.digitChar (n / 16 % 16), Nat.digitChar (n % 16)]

/-- `ESCAPE_DCT`: the letter behind the backslash. -/
def shortEscape : Char → Option Char
  | '"' => some '"'
  | '\\' => some '\\'
  | '\n' => some 'n'
  | '\r' => some 'r'
  | '\t' => some 't'
  | '\x0c' => some 'f'
  | '\x08' => some 'b'
  | _ => none

/-- A character between the quotes. -/
def escapeChar (c : Char) : PyStr :=
  match shortEscape c with
  | some letter => ['\\', letter]
  | none =>
      if 0x20 ≤ c.toNat ∧ c.toNat ≤ 0x7E then [c]
      else if c.toNat < 0x10000 then escapeUnit c.toNat
      else
        let n := c.toNat - 0x10000
        escapeUnit (0xD800 + n / 1024) ++ escapeUnit (0xDC00 + n % 1024)

/-- `json.dumps(s)`. -/
def dumpsStr (s : PyStr) : PyStr := '"' :: s.flatMap escapeChar ++ ['"']

/-- `_decode_uXXXX`. -/
def decodeUnit (a b c d : Char) : Option Nat := do
  let a ← IpAddress.hexValue a
  let b ← IpAddress.hexValue b
  let c ← IpAddress.hexValue c
  let d ← IpAddress.hexValue d
  some (((a * 16 + b) * 16 + c) * 16 + d)

/-- The character a backslash and one letter stand for. -/
def backslash : Char → Option Nat
  | '"' => some 0x22
  | '\\' => some 0x5C
  | '/' => some 0x2F
  | 'b' => some 0x08
  | 'f' => some 0x0C
  | 'n' => some 0x0A
  | 'r' => some 0x0D
  | 't' => some 0x09
  | _ => none

/-- The code units up to the closing quote, with nothing behind it. -/
def scanUnits : List Char → Option (List Nat)
  | [] => none
  | ['"'] => some []
  | '"' :: _ => none
  | '\\' :: 'u' :: a :: b :: c :: d :: rest => do
      let n ← decodeUnit a b c d
      let units ← scanUnits rest
      some (n :: units)
  | '\\' :: letter :: rest => do
      let n ← backslash letter
      let units ← scanUnits rest
      some (n :: units)
  | c :: rest =>
      if c.toNat < 0x20 then none
      else do
        let units ← scanUnits rest
        some (c.toNat :: units)

/-- A surrogate that is not one of a pair is no character. Python's strings have such code units,
and `json.loads` lets them through; texts that escape one are outside of this model. -/
def joinUnits : List Nat → Option PyStr
  | [] => some []
  | n :: rest =>
      if 0xD800 ≤ n ∧ n ≤ 0xDBFF then
        match rest with
        | m :: rest =>
            if 0xDC00 ≤ m ∧ m ≤ 0xDFFF then
              (joinUnits rest).map (Char.ofNat (0x10000 + 1024 * (n - 0xD800) + (m - 0xDC00)) :: ·)
            else none
        | [] => none
      else if 0xDC00 ≤ n ∧ n ≤ 0xDFFF then none
      else (joinUnits rest).map (Char.ofNat n :: ·)

/-- Every surrogate that the text escapes is one of a pair. -/
def paired : PyStr → Bool
  | [] => true
  | '\\' :: 'u' :: a :: b :: c :: d :: rest =>
      match decodeUnit a b c d with
      | none => paired rest
      | some n =>
          if 0xD800 ≤ n ∧ n ≤ 0xDBFF then
            match rest with
            | '\\' :: 'u' :: a :: b :: c :: d :: rest =>
                (decodeUnit a b c d).any (fun m => 0xDC00 ≤ m ∧ m ≤ 0xDFFF) && paired rest
            | _ => false
          else !(0xDC00 ≤ n ∧ n ≤ 0xDFFF : Bool) && paired rest
  | '\\' :: _ :: rest => paired rest
  | _ :: rest => paired rest

/-- `json.loads(text)`, of a text that is one string. -/
def loadsStr : PyStr → Option PyStr
  | '"' :: rest => (scanUnits rest).bind joinUnits
  | _ => none

/-! ## Printing -/

theorem digitChar_printable : ∀ n < 16,
    0x20 ≤ (Nat.digitChar n).toNat ∧ (Nat.digitChar n).toNat ≤ 0x7E := by decide

theorem escapeUnit_printable {n : Nat} (h : n < 0x10000) :
    ∀ c ∈ escapeUnit n, 0x20 ≤ c.toNat ∧ c.toNat ≤ 0x7E := by
  simp only [escapeUnit, List.forall_mem_cons, List.not_mem_nil, false_imp_iff, implies_true,
    and_true]
  refine ⟨by decide, by decide, ?_, ?_, ?_, ?_⟩ <;> exact digitChar_printable _ (by omega)

/-- The letter is read back as the character. -/
theorem shortEscape_some {c letter : Char} (h : shortEscape c = some letter) :
    backslash letter = some c.toNat ∧ 0x20 ≤ letter.toNat ∧ letter.toNat ≤ 0x7E := by
  unfold shortEscape at h
  split at h
  all_goals cases h
  all_goals decide

theorem shortEscape_none {c : Char} (h : shortEscape c = none) : c ≠ '"' ∧ c ≠ '\\' := by
  constructor
  · rintro rfl
    cases h
  · rintro rfl
    cases h

/-- What a character is printed as: a backslash and a letter, itself, or one or two code
units. -/
theorem escapeChar_cases (c : Char) :
    (∃ letter, escapeChar c = ['\\', letter] ∧ shortEscape c = some letter) ∨
    (escapeChar c = [c] ∧ 0x20 ≤ c.toNat ∧ c.toNat ≤ 0x7E ∧ shortEscape c = none) ∨
    (escapeChar c = escapeUnit c.toNat ∧ c.toNat < 0x10000) ∨
    (escapeChar c = escapeUnit (0xD800 + (c.toNat - 0x10000) / 1024) ++
      escapeUnit (0xDC00 + (c.toNat - 0x10000) % 1024) ∧ 0x10000 ≤ c.toNat) := by
  unfold escapeChar
  dsimp only
  cases hshort : shortEscape c with
  | some letter => exact .inl ⟨letter, rfl, rfl⟩
  | none =>
      dsimp only
      by_cases hplain : 0x20 ≤ c.toNat ∧ c.toNat ≤ 0x7E
      · exact .inr (.inl ⟨if_pos hplain, hplain.1, hplain.2, rfl⟩)
      rw [if_neg hplain]
      by_cases hbasic : c.toNat < 0x10000
      · exact .inr (.inr (.inl ⟨if_pos hbasic, hbasic⟩))
      · exact .inr (.inr (.inr ⟨if_neg hbasic, Nat.not_lt.mp hbasic⟩))

theorem escapeChar_printable (c : Char) : ∀ d ∈ escapeChar c, 0x20 ≤ d.toNat ∧ d.toNat ≤ 0x7E := by
  have hvalid := Utf8.toNat_valid c
  intro d hd
  rcases escapeChar_cases c with ⟨letter, heq, hshort⟩ | ⟨heq, hlow, hhigh, -⟩ | ⟨heq, hbasic⟩ |
    ⟨heq, hpair⟩
  · rw [heq] at hd
    rcases List.mem_pair.mp hd with rfl | rfl
    · decide
    · exact (shortEscape_some hshort).2
  · rw [heq] at hd
    rw [List.mem_singleton.mp hd]
    exact ⟨hlow, hhigh⟩
  · rw [heq] at hd
    exact escapeUnit_printable hbasic d hd
  · rw [heq] at hd
    rcases List.mem_append.mp hd with hd | hd
    · exact escapeUnit_printable (by omega) d hd
    · exact escapeUnit_printable (by omega) d hd

/-- What is printed is printable ASCII, so one line whatever the string has in it. -/
theorem dumpsStr_printable (s : PyStr) : ∀ c ∈ dumpsStr s, 0x20 ≤ c.toNat ∧ c.toNat ≤ 0x7E := by
  intro c hc
  simp only [dumpsStr, List.cons_append, List.mem_cons, List.mem_append, List.mem_flatMap,
    List.not_mem_nil, or_false] at hc
  rcases hc with rfl | ⟨d, -, hd⟩ | rfl
  · decide
  · exact escapeChar_printable d c hd
  · decide

theorem dumpsStr_line (s : PyStr) : '\n' ∉ dumpsStr s ∧ '\r' ∉ dumpsStr s :=
  ⟨fun h => absurd (dumpsStr_printable s _ h).1 (by decide),
    fun h => absurd (dumpsStr_printable s _ h).1 (by decide)⟩

/-! ## Round trip -/

theorem decodeUnit_escape {n : Nat} (h : n < 0x10000) :
    decodeUnit (Nat.digitChar (n / 4096)) (Nat.digitChar (n / 256 % 16))
      (Nat.digitChar (n / 16 % 16)) (Nat.digitChar (n % 16)) = some n := by
  unfold decodeUnit
  rw [IpAddress.hexValue_digitChar _ (by omega), IpAddress.hexValue_digitChar _ (by omega),
    IpAddress.hexValue_digitChar _ (by omega), IpAddress.hexValue_digitChar _ (by omega)]
  show some _ = some n
  congr 1
  omega

theorem scanUnits_escapeUnit {n : Nat} (h : n < 0x10000) (rest : List Char) :
    scanUnits (escapeUnit n ++ rest) = (scanUnits rest).map (n :: ·) := by
  show scanUnits ('\\' :: 'u' :: _ :: _ :: _ :: _ :: rest) = _
  rw [scanUnits, decodeUnit_escape h]
  cases scanUnits rest <;> rfl

theorem backslash_le {letter : Char} {n : Nat} (h : backslash letter = some n) : n ≤ 0x5C := by
  unfold backslash at h
  split at h
  all_goals cases h
  all_goals decide

theorem scanUnits_backslash {letter : Char} {n : Nat} (h : backslash letter = some n)
    (rest : List Char) : scanUnits ('\\' :: letter :: rest) = (scanUnits rest).map (n :: ·) := by
  have hletter : letter ≠ 'u' := by
    rintro rfl
    cases h
  rw [scanUnits]
  · rw [h]
    cases scanUnits rest <;> rfl
  · intro a b c d rest' hu
    exact absurd hu hletter

theorem scanUnits_plain {c : Char} (hlow : 0x20 ≤ c.toNat) (hquote : c ≠ '"')
    (hslash : c ≠ '\\') (rest : List Char) :
    scanUnits (c :: rest) = (scanUnits rest).map (c.toNat :: ·) := by
  rw [scanUnits]
  · rw [if_neg (by omega)]
    cases scanUnits rest <;> rfl
  all_goals grind

/-- The code units of a character. -/
def charUnits (c : Char) : List Nat :=
  if c.toNat < 0x10000 then [c.toNat]
  else [0xD800 + (c.toNat - 0x10000) / 1024, 0xDC00 + (c.toNat - 0x10000) % 1024]

theorem charUnits_basic {c : Char} (h : c.toNat < 0x10000) : charUnits c = [c.toNat] := if_pos h

theorem scanUnits_escapeChar (c : Char) (rest : List Char) :
    scanUnits (escapeChar c ++ rest) = (scanUnits rest).map (charUnits c ++ ·) := by
  have hvalid := Utf8.toNat_valid c
  rcases escapeChar_cases c with ⟨letter, heq, hshort⟩ | ⟨heq, hlow, hhigh, hshort⟩ |
    ⟨heq, hbasic⟩ | ⟨heq, hpair⟩
  · have hletter := (shortEscape_some hshort).1
    have hle := backslash_le hletter
    rw [heq, charUnits_basic (by omega)]
    exact scanUnits_backslash hletter rest
  · obtain ⟨hquote, hslash⟩ := shortEscape_none hshort
    rw [heq, charUnits_basic (by omega)]
    exact scanUnits_plain hlow hquote hslash rest
  · rw [heq, charUnits_basic hbasic]
    exact scanUnits_escapeUnit hbasic rest
  · rw [heq, List.append_assoc, scanUnits_escapeUnit (by omega), scanUnits_escapeUnit (by omega),
      charUnits, if_neg (by omega), Option.map_map]
    rfl

theorem joinUnits_charUnits (c : Char) (rest : List Nat) :
    joinUnits (charUnits c ++ rest) = (joinUnits rest).map (c :: ·) := by
  have hvalid := Utf8.toNat_valid c
  have hchar := Char.ofNat_toNat c
  by_cases hbasic : c.toNat < 0x10000
  · rw [charUnits_basic hbasic, List.singleton_append, joinUnits.eq_def]
    dsimp only
    rw [if_neg (by omega), if_neg (by omega), hchar]
  · rw [charUnits, if_neg hbasic]
    show joinUnits (_ :: _ :: rest) = _
    rw [joinUnits, if_pos (by omega), if_pos (by omega)]
    rw [show 0x10000 + 1024 * (0xD800 + (c.toNat - 0x10000) / 1024 - 0xD800) +
      (0xDC00 + (c.toNat - 0x10000) % 1024 - 0xDC00) = c.toNat by omega, hchar]

/-- Between the quotes, up to the closing one. -/
theorem scanUnits_escaped (s : PyStr) :
    scanUnits (s.flatMap escapeChar ++ ['"']) = some (s.flatMap charUnits) := by
  induction s with
  | nil => rfl
  | cons c s ih =>
      rw [List.flatMap_cons, List.append_assoc, scanUnits_escapeChar, ih]
      rfl

/-- **`json.loads` undoes `json.dumps`** on every string. -/
theorem loadsStr_dumpsStr (s : PyStr) : loadsStr (dumpsStr s) = some s := by
  show (scanUnits (s.flatMap escapeChar ++ ['"'])).bind joinUnits = some s
  rw [scanUnits_escaped]
  induction s with
  | nil => rfl
  | cons c s ih =>
      rw [List.flatMap_cons]
      show joinUnits (charUnits c ++ s.flatMap charUnits) = _
      rw [joinUnits_charUnits, show joinUnits (s.flatMap charUnits) = some s from ih]
      rfl

end SrxProbe.Lib.Json
