import SrxProbe.Lib.Text

/-!
# Reading a text stream by bounded lines

A stream in text mode reads each of the three line endings as a line feed, and
`readline(limit)` returns a line with its line feed, or `limit` characters of it. Read
to the end, a line comes in pieces, and what lies behind its line feed does not depend
on it.
-/

namespace SrxProbe.Lib

/-! ## Line endings -/

/-- Universal newlines: CR LF and CR are read as LF. -/
def universalNewlines : List Char → List Char
  | [] => []
  | '\r' :: '\n' :: rest => '\n' :: universalNewlines rest
  | c :: rest => (if c = '\r' then '\n' else c) :: universalNewlines rest

/-- The character ends a line. -/
def isNewline (c : Char) : Bool := c = '\n' || c = '\r'

theorem solid_of_all {line : PyStr} (h : line.all (!isNewline ·) = true) :
    ∀ c ∈ line, isNewline c = false :=
  fun c hc => (Bool.not_eq_true' _).mp (List.all_eq_true.mp h c hc)

theorem universalNewlines_cons {c : Char} (h : c ≠ '\r') (rest : List Char) :
    universalNewlines (c :: rest) = c :: universalNewlines rest := by
  rw [universalNewlines]
  · rw [if_neg h]
  · intro _ hc
    exact absurd hc h

/-- A CR that is not followed by a line feed. -/
theorem universalNewlines_cr {rest : List Char} (h : rest.head? ≠ some '\n') :
    universalNewlines ('\r' :: rest) = '\n' :: universalNewlines rest := by
  rw [universalNewlines]
  · rfl
  · intro rest' _ hrest
    rw [hrest] at h
    exact h rfl

/-- A line feed cuts the stream, whatever stands before it. -/
theorem universalNewlines_lineFeed (text rest : List Char) :
    universalNewlines (text ++ '\n' :: rest) =
      universalNewlines (text ++ ['\n']) ++ universalNewlines rest := by
  fun_induction universalNewlines text with
  | case1 => rw [List.nil_append, List.nil_append, universalNewlines_cons (by decide)]; rfl
  | case2 text ih => exact congrArg ('\n' :: ·) ih
  | case3 c text hpair ih =>
      by_cases hc : c = '\r'
      · -- a CR at the end is one line ending with the line feed
        subst hc
        cases text with
        | nil => rfl
        | cons d text =>
            have hd : ∀ more, (d :: text ++ more).head? ≠ some '\n' := by
              intro more hd
              exact hpair text rfl (by rw [Option.some.inj hd])
            show universalNewlines ('\r' :: (d :: text ++ '\n' :: rest)) =
              universalNewlines ('\r' :: (d :: text ++ ['\n'])) ++ universalNewlines rest
            rw [universalNewlines_cr (hd _), universalNewlines_cr (hd _), ih]
            rfl
      · rw [List.cons_append, List.cons_append, universalNewlines_cons hc,
          universalNewlines_cons hc, ih]
        rfl

/-- A text that ends in a line feed is read as one. -/
theorem exists_universalNewlines (text : List Char) :
    ∃ lines, universalNewlines (text ++ ['\n']) = lines ++ ['\n'] := by
  fun_induction universalNewlines text with
  | case1 => exact ⟨[], rfl⟩
  | case2 text ih =>
      obtain ⟨lines, hlines⟩ := ih
      exact ⟨'\n' :: lines, congrArg ('\n' :: ·) hlines⟩
  | case3 c text hpair ih =>
      obtain ⟨lines, hlines⟩ := ih
      by_cases hlast : c = '\r' ∧ text = []
      · rw [hlast.1, hlast.2]
        exact ⟨[], rfl⟩
      · refine ⟨(if c = '\r' then '\n' else c) :: lines, ?_⟩
        rw [List.cons_append, universalNewlines, hlines]
        · rfl
        · intro rest hc hrest
          cases text with
          | nil => exact hlast ⟨hc, rfl⟩
          | cons d text => exact hpair text hc (by rw [(List.cons.inj hrest).1])

theorem universalNewlines_line {line : List Char} (h : ∀ c ∈ line, isNewline c = false)
    (rest : List Char) : universalNewlines (line ++ rest) = line ++ universalNewlines rest := by
  induction line with
  | nil => rfl
  | cons c line ih =>
      have hc : c ≠ '\r' := by
        rintro rfl
        cases h '\r' List.mem_cons_self
      rw [List.cons_append, universalNewlines_cons hc,
        ih fun d hd => h d (List.mem_cons_of_mem c hd)]
      rfl

/-- A line goes up to the first line ending. -/
theorem universalNewlines_newline {c : Char} (h : isNewline c = true) (rest : List Char) :
    ∃ rest', universalNewlines (c :: rest) = '\n' :: rest' := by
  have hc : c = '\n' ∨ c = '\r' := by simpa [isNewline] using h
  rcases hc with rfl | rfl
  · exact ⟨_, universalNewlines_cons (by decide) rest⟩
  · cases rest with
    | nil => exact ⟨[], rfl⟩
    | cons d rest =>
        by_cases hd : d = '\n'
        · subst hd
          exact ⟨_, rfl⟩
        · exact ⟨_, universalNewlines_cr fun h => hd (Option.some.inj h)⟩

/-- What comes later changes nothing of what has been read. -/
theorem prefix_universalNewlines (text rest : List Char) :
    universalNewlines text <+: universalNewlines (text ++ rest) := by
  fun_induction universalNewlines text with
  | case1 => exact List.nil_prefix
  | case2 text ih => exact List.prefix_cons_inj '\n' |>.mpr ih
  | case3 c text hpair ih =>
      by_cases hcr : c = '\r' ∧ (text ++ rest).head? = some '\n'
      · -- the text ends between a CR and its line feed
        obtain ⟨rfl, hhead⟩ := hcr
        cases text with
        | nil =>
            obtain ⟨more, hmore⟩ := universalNewlines_newline (c := '\r') rfl rest
            rw [List.singleton_append, hmore]
            exact ⟨more, rfl⟩
        | cons d text =>
            exact absurd (congrArg (· :: text) (Option.some.inj hhead)) (hpair text rfl)
      · have hstep : universalNewlines (c :: (text ++ rest)) =
            (if c = '\r' then '\n' else c) :: universalNewlines (text ++ rest) := by
          by_cases hc : c = '\r'
          · subst hc
            rw [universalNewlines_cr fun h => hcr ⟨rfl, h⟩]
            rfl
          · rw [universalNewlines_cons hc, if_neg hc]
        rw [List.cons_append, hstep]
        exact (List.prefix_cons_inj _).mpr ih

theorem universalNewlines_concat {c : Char} (h : isNewline c = false) (text : List Char) :
    universalNewlines (text ++ [c]) = universalNewlines text ++ [c] := by
  have hn : c ≠ '\n' := by rintro rfl; cases h
  have hr : c ≠ '\r' := by rintro rfl; cases h
  fun_induction universalNewlines text with
  | case1 => rw [List.nil_append, universalNewlines_cons hr]; rfl
  | case2 text ih => exact congrArg ('\n' :: ·) ih
  | case3 d text hpair ih =>
      rw [List.cons_append, universalNewlines, ih]
      · rfl
      · intro rest hd htext
        cases text with
        | nil => exact hn (List.cons.inj htext).1
        | cons e text => exact hpair text hd (by rw [(List.cons.inj htext).1])

/-! ## Bounded lines -/

/-- `stream.readline(limit)`: what it returns, and what is left. -/
def readline : Nat → List Char → PyStr × List Char
  | 0, text => ([], text)
  | _ + 1, [] => ([], [])
  | limit + 1, c :: rest =>
      if c = '\n' then (['\n'], rest)
      else
        let (line, left) := readline limit rest
        (c :: line, left)

/-- `readline` until it returns nothing, each line without its line feed. -/
def readlinesFrom (limit : Nat) : Nat → List Char → List PyStr
  | 0, _ => []
  | turns + 1, text =>
      let (line, left) := readline limit text
      if line.isEmpty then [] else rstripChar '\n' line :: readlinesFrom limit turns left

/-- The lines of a stream read to its end. -/
def readlines (limit : Nat) (text : List Char) : List PyStr :=
  readlinesFrom limit text.length text

/-- The pieces in which a line is read. -/
def linePieces (limit : Nat) (line : PyStr) : List PyStr :=
  if limit = 0 ∨ line.length < limit then [line]
  else line.take limit :: linePieces limit (line.drop limit)
termination_by line.length
decreasing_by
  simp only [List.length_drop]
  omega

theorem readline_lineFeed {limit : Nat} {line : PyStr} (hlen : line.length < limit)
    (hline : '\n' ∉ line) (rest : List Char) :
    readline limit (line ++ '\n' :: rest) = (line ++ ['\n'], rest) := by
  induction line generalizing limit with
  | nil =>
      cases limit with
      | zero => cases hlen
      | succ limit => exact if_pos rfl
  | cons c line ih =>
      cases limit with
      | zero => cases hlen
      | succ limit =>
          have hc : c ≠ '\n' := fun h => hline (h ▸ List.mem_cons_self)
          have hrest : '\n' ∉ line := fun h => hline (List.mem_cons_of_mem c h)
          rw [List.cons_append, readline, if_neg hc, ih (Nat.lt_of_succ_lt_succ hlen) hrest]
          rfl

theorem readline_long {limit : Nat} {line : PyStr} (hlen : limit ≤ line.length)
    (hline : '\n' ∉ line) (rest : List Char) :
    readline limit (line ++ rest) = (line.take limit, line.drop limit ++ rest) := by
  induction line generalizing limit with
  | nil =>
      rw [Nat.le_zero.mp hlen]
      rfl
  | cons c line ih =>
      cases limit with
      | zero => rfl
      | succ limit =>
          have hc : c ≠ '\n' := fun h => hline (h ▸ List.mem_cons_self)
          have hrest : '\n' ∉ line := fun h => hline (List.mem_cons_of_mem c h)
          rw [List.cons_append, readline, if_neg hc, ih (Nat.le_of_succ_le_succ hlen) hrest]
          rfl

theorem readline_split (limit : Nat) (text : List Char) :
    (readline limit text).1 ++ (readline limit text).2 = text := by
  induction limit generalizing text with
  | zero => rfl
  | succ limit ih =>
      cases text with
      | nil => rfl
      | cons c rest =>
          rw [readline]
          split
          · rename_i hc
            rw [hc]
            rfl
          · exact congrArg (c :: ·) (ih rest)

/-- More turns than characters change nothing. -/
theorem readlinesFrom_turns (limit : Nat) {turns : Nat} {text : List Char}
    (h : text.length ≤ turns) : readlinesFrom limit turns text = readlines limit text := by
  induction turns using Nat.strongRecOn generalizing text with
  | ind turns ih =>
      unfold readlines
      cases turns with
      | zero => rw [Nat.le_zero.mp h]
      | succ turns =>
          have hsplit := readline_split limit text
          cases hread : readline limit text with
          | mk line left =>
              rw [hread] at hsplit
              have hlen : line.length + left.length = text.length := by
                rw [← hsplit, List.length_append]
              cases hline : line with
              | nil =>
                  have hnone : readlinesFrom limit (turns + 1) text = [] := by
                    rw [readlinesFrom, hread, hline]
                    rfl
                  rw [hnone]
                  cases htext : text.length with
                  | zero => rfl
                  | succ n =>
                      rw [readlinesFrom, hread, hline]
                      rfl
              | cons c line' =>
                  rw [hline, List.length_cons] at hlen
                  obtain ⟨n, hn⟩ : ∃ n, text.length = n + 1 := ⟨text.length - 1, by omega⟩
                  rw [hn, readlinesFrom, readlinesFrom, hread, hline]
                  show _ :: _ = _ :: _
                  rw [ih turns (by omega) (by omega), ih n (by omega) (by omega)]

/-- A turn of the loop. -/
theorem readlines_cons {limit : Nat} {text line left : List Char}
    (h : readline limit text = (line, left)) (hne : line ≠ []) :
    readlines limit text = rstripChar '\n' line :: readlines limit left := by
  have hlen : line.length + left.length = text.length := by
    have hsplit := congrArg List.length (readline_split limit text)
    rwa [h, List.length_append] at hsplit
  have hpos : 0 < line.length := List.length_pos_iff.mpr hne
  obtain ⟨n, hn⟩ : ∃ n, text.length = n + 1 := ⟨text.length - 1, by omega⟩
  rw [readlines, hn, readlinesFrom, h]
  simp only [List.isEmpty_eq_false_iff.mpr hne, Bool.false_eq_true, if_false]
  rw [readlinesFrom_turns limit (by omega)]

theorem rstripChar_of_notMem {c : Char} {s : PyStr} (h : c ∉ s) : rstripChar c s = s := by
  rw [rstripChar, List.rdropWhile_eq_self_iff]
  intro hne hlast
  exact h (beq_iff_eq.mp hlast ▸ List.getLast_mem hne)

/-- **A line is read in its pieces**, and then what is behind it. -/
theorem readlines_line {limit : Nat} (hlimit : 0 < limit) {line : PyStr} (hline : '\n' ∉ line)
    (rest : List Char) :
    readlines limit (line ++ '\n' :: rest) = linePieces limit line ++ readlines limit rest := by
  fun_induction linePieces limit line with
  | case1 line hshort =>
      have hlt : line.length < limit := by omega
      have hstrip : rstripChar '\n' (line ++ ['\n']) = line := by
        rw [rstripChar, List.rdropWhile_concat_pos (fun c => c == '\n') _ _ rfl]
        exact rstripChar_of_notMem hline
      rw [readlines_cons (readline_lineFeed hlt hline rest) (by simp), hstrip]
      rfl
  | case2 line hlong ih =>
      have hge : limit ≤ line.length := by omega
      have hne : line.take limit ≠ [] := by
        rw [← List.length_pos_iff, List.length_take]
        omega
      have htake : '\n' ∉ line.take limit := fun h => hline (List.mem_of_mem_take h)
      rw [readlines_cons (readline_long hge hline ('\n' :: rest)) hne, rstripChar_of_notMem htake,
        ih fun h => hline (List.mem_of_mem_drop h)]
      rfl

/-- What is behind a line feed is read as if nothing were before it. -/
theorem readlines_lineFeed {limit : Nat} (hlimit : 0 < limit) (text rest : List Char) :
    readlines limit (text ++ '\n' :: rest) =
      readlines limit (text ++ ['\n']) ++ readlines limit rest := by
  induction hlen : text.length using Nat.strongRecOn generalizing text with
  | ind n ih =>
      by_cases hmem : '\n' ∈ text
      · obtain ⟨line, more, rfl, hline⟩ := List.eq_append_cons_of_mem hmem
        rw [List.length_append, List.length_cons] at hlen
        rw [List.append_assoc, List.append_assoc, List.cons_append, List.cons_append,
          readlines_line hlimit hline, readlines_line hlimit hline,
          ih more.length (by omega) more rfl, List.append_assoc]
      · rw [readlines_line hlimit hmem, readlines_line hlimit hmem]
        rw [List.append_assoc]
        rfl

/-! ## Text mode -/

/-- The lines of a stream in text mode. -/
def readText (limit : Nat) (text : PyStr) : List PyStr := readlines limit (universalNewlines text)

theorem readText_lineFeed {limit : Nat} (hlimit : 0 < limit) (text rest : PyStr) :
    readText limit (text ++ '\n' :: rest) =
      readText limit (text ++ ['\n']) ++ readText limit rest := by
  obtain ⟨lines, hlines⟩ := exists_universalNewlines text
  unfold readText
  rw [universalNewlines_lineFeed, hlines, List.append_assoc, List.singleton_append,
    readlines_lineFeed hlimit]

/-- The first piece is the beginning of the text up to its first line ending. -/
theorem head?_readText {limit : Nat} (hlimit : 0 < limit) (text : PyStr) :
    (readText limit (text ++ ['\n'])).head? =
      some ((text.takeWhile fun c => !isNewline c).take limit) := by
  have hsplit : text ++ ['\n'] =
      text.takeWhile (fun c => !isNewline c) ++
        (text.dropWhile (fun c => !isNewline c) ++ ['\n']) := by
    rw [← List.append_assoc, List.takeWhile_append_dropWhile]
  have hline : ∀ c ∈ text.takeWhile (fun c => !isNewline c), isNewline c = false := by
    intro c hc
    simpa using List.mem_takeWhile_imp hc
  have hfeed : '\n' ∉ text.takeWhile fun c => !isNewline c := by
    intro hmem
    cases hline '\n' hmem
  obtain ⟨rest, hrest⟩ : ∃ rest, universalNewlines
      (text.dropWhile (fun c => !isNewline c) ++ ['\n']) = '\n' :: rest := by
    cases hdrop : text.dropWhile (fun c => !isNewline c) with
    | nil => exact ⟨[], rfl⟩
    | cons c more =>
        have hc := List.head?_dropWhile_not (fun c => !isNewline c) text
        rw [hdrop] at hc
        exact universalNewlines_newline (by simpa using hc) _
  rw [hsplit, readText, universalNewlines_line hline, hrest, readlines_line hlimit hfeed,
    linePieces]
  split
  · rename_i hshort
    rw [List.take_of_length_le (by omega)]
    rfl
  · rfl

/-- A plain line that is short enough is read at once. -/
theorem readText_line {limit : Nat} {line : PyStr} (h : ∀ c ∈ line, isNewline c = false)
    (hlen : line.length < limit) : readText limit (line ++ ['\n']) = [line] := by
  have hfeed : '\n' ∉ line := by
    intro hmem
    cases h '\n' hmem
  have htext : universalNewlines (line ++ ['\n']) = line ++ ['\n'] := universalNewlines_line h _
  rw [readText, htext, readlines_line (Nat.zero_lt_of_lt hlen) hfeed, linePieces,
    if_pos (.inr hlen)]
  rfl

theorem length_readline_le (limit : Nat) (text : List Char) :
    (readline limit text).1.length ≤ limit := by
  induction limit generalizing text with
  | zero => exact Nat.le_refl 0
  | succ limit ih =>
      cases text with
      | nil => exact Nat.zero_le _
      | cons c rest =>
          rw [readline]
          split
          · exact Nat.succ_le_succ (Nat.zero_le limit)
          · exact Nat.succ_le_succ (ih rest)

/-- A line of a text stream is read in its pieces, and then what is behind it. -/
theorem readText_pieces {limit : Nat} (hlimit : 0 < limit) {line : PyStr}
    (h : ∀ c ∈ line, isNewline c = false) (rest : PyStr) :
    readText limit (line ++ '\n' :: rest) = linePieces limit line ++ readText limit rest := by
  have hfeed : '\n' ∉ line := by
    intro hmem
    cases h '\n' hmem
  have htext : universalNewlines (line ++ '\n' :: rest) =
      line ++ '\n' :: universalNewlines rest := by
    rw [universalNewlines_line h, universalNewlines_cons (by decide)]
  rw [readText, htext, readlines_line hlimit hfeed]
  rfl

theorem linePieces_short {limit : Nat} {line : PyStr} (h : line.length < limit) :
    linePieces limit line = [line] := by
  rw [linePieces, if_pos (.inr h)]

theorem subset_of_mem_linePieces {limit : Nat} {line piece : PyStr}
    (h : piece ∈ linePieces limit line) : piece ⊆ line := by
  fun_induction linePieces limit line with
  | case1 line _ =>
      rw [List.mem_singleton.mp h]
      exact List.Subset.refl line
  | case2 line _ ih =>
      rcases List.mem_cons.mp h with rfl | h
      · exact List.take_subset limit line
      · exact List.Subset.trans (ih h) (List.drop_subset limit line)

theorem length_le_of_mem_readText {limit : Nat} {text line : PyStr}
    (h : line ∈ readText limit text) : line.length ≤ limit := by
  have hfrom : ∀ turns text, line ∈ readlinesFrom limit turns text → line.length ≤ limit := by
    intro turns
    induction turns with
    | zero =>
        intro text h
        cases h
    | succ turns ih =>
        intro text h
        rw [readlinesFrom] at h
        simp only at h
        split at h
        · cases h
        · rcases List.mem_cons.mp h with rfl | h
          · exact (List.rdropWhile_prefix _ _).length_le.trans (length_readline_le limit text)
          · exact ih _ h
  exact hfrom _ _ h

end SrxProbe.Lib
