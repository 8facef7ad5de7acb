import SrxProbe.Lib.Py

/-!
# Shell words

How a POSIX shell cuts a command line into words and operators: blanks and operators
end a word, quotes and backslashes take the meaning from what they enclose, and a
character that starts an expansion is kept apart from those that stand for themselves.
-/

namespace SrxProbe.Lib.Shell

/-! ## Tokens -/

/-- A character of a word: it stands for itself, or starts an expansion. -/
inductive Piece
  | lit (c : Char)
  | expand (c : Char)
  deriving DecidableEq, Repr

inductive Token
  | word (pieces : List Piece)
  | op (text : PyStr)
  deriving DecidableEq, Repr

/-- A word without expansions. -/
def literal (w : PyStr) : Token := .word (w.map .lit)

/-- The operators; a newline is one. -/
def operators : List PyStr :=
  ["&&".toList, "||".toList, ";;".toList, "<<".toList, ">>".toList, "<&".toList, ">&".toList,
    "<>".toList, "<<-".toList, ">|".toList, "&".toList, "|".toList, ";".toList, "<".toList,
    ">".toList, "(".toList, ")".toList, "\n".toList]

/-- The characters that start an expansion outside quotes: of a parameter, a command, a
pathname or a home directory. -/
def expansions : List Char := ['$', '`', '*', '?', '[', '~']

/-! ## Scanning -/

/-- What is read of the token that has not ended. -/
inductive Pending
  | none
  | word (pieces : List Piece)
  | op (text : PyStr)
  | comment
  deriving DecidableEq, Repr

/-- The quoting around the next character. -/
inductive Mode
  | plain
  | single
  | double
  | escaped
  | doubleEscaped
  deriving DecidableEq, Repr

structure Scan where
  tokens : List Token
  pending : Pending
  mode : Mode
  deriving DecidableEq, Repr

namespace Scan

/-- The pending token ends. -/
def flush (s : Scan) : Scan :=
  match s.pending with
  | .word pieces => { s with tokens := s.tokens ++ [.word pieces], pending := .none }
  | .op text => { s with tokens := s.tokens ++ [.op text], pending := .none }
  | .none | .comment => { s with pending := .none }

/-- A pending operator ends. -/
def delimit (s : Scan) : Scan :=
  match s.pending with
  | .op _ => s.flush
  | _ => s

/-- The pieces of the pending word, which starts here if there is none. -/
def pieces (s : Scan) : List Piece :=
  match s.pending with
  | .word pieces => pieces
  | _ => []

/-- More of the pending word. -/
def add (s : Scan) (more : List Piece) : Scan := { s with pending := .word (s.pieces ++ more) }

/-- An unquoted character that is no part of an operator before it. -/
def start (s : Scan) (c : Char) : Scan :=
  if c = '\'' then { s.add [] with mode := .single }
  else if c = '"' then { s.add [] with mode := .double }
  else if c = ' ' ∨ c = '\t' then s.flush
  else if [c] ∈ operators then { s.flush with pending := .op [c] }
  else if c = '#' ∧ s.pending = .none then { s with pending := .comment }
  else s.add [if c ∈ expansions then .expand c else .lit c]

/-- An unquoted character. -/
def plainStep (s : Scan) (c : Char) : Scan :=
  match s.pending with
  | .comment => if c = '\n' then { s with pending := .op [c] } else s
  | .op text =>
      if c = '\\' then { s with mode := .escaped }
      else if text ++ [c] ∈ operators then { s with pending := .op (text ++ [c]) }
      else s.flush.start c
  | _ => if c = '\\' then { s with mode := .escaped } else s.start c

/-- The next character. -/
def step (s : Scan) (c : Char) : Scan :=
  match s.mode with
  | .plain => s.plainStep c
  | .single => if c = '\'' then { s with mode := .plain } else s.add [.lit c]
  | .double =>
      if c = '"' then { s with mode := .plain }
      else if c = '\\' then { s with mode := .doubleEscaped }
      else s.add [if c = '$' ∨ c = '`' then .expand c else .lit c]
  | .escaped =>
      -- an escaped newline joins two lines
      if c = '\n' then { s with mode := .plain } else { s.delimit.add [.lit c] with mode := .plain }
  | .doubleEscaped =>
      if c = '\n' then { s with mode := .double }
      else if c ∈ ['$', '`', '"', '\\'] then { s.add [.lit c] with mode := .double }
      else { s.add [.lit '\\', .lit c] with mode := .double }

def run (s : Scan) (text : PyStr) : Scan := text.foldl step s

/-- The tokens, unless a quote is open at the end. -/
def finish (s : Scan) : Option (List Token) :=
  match s.mode with
  | .plain => some s.flush.tokens
  | _ => none

end Scan

/-- The state between two tokens. -/
def between (tokens : List Token) : Scan := ⟨tokens, .none, .plain⟩

/-- The state behind a word. -/
def behind (tokens : List Token) (w : PyStr) : Scan := ⟨tokens, .word (w.map .lit), .plain⟩

/-- The state in single quotes, inside a word. -/
def quoted (tokens : List Token) (w : PyStr) : Scan := ⟨tokens, .word (w.map .lit), .single⟩

/-- The tokens of a command line. -/
def tokens (text : PyStr) : Option (List Token) := ((between []).run text).finish

/-! ## Reading words -/

theorem Scan.run_append (s : Scan) (text rest : PyStr) :
    s.run (text ++ rest) = (s.run text).run rest := by
  unfold Scan.run
  rw [List.foldl_append]

theorem Scan.run_cons (s : Scan) (c : Char) (rest : PyStr) :
    s.run (c :: rest) = (s.step c).run rest := rfl

/-- The characters that mean something to the shell. -/
def specials : List Char :=
  ['\'', '"', '\\', ' ', '\t', '#', '&', '|', ';', '<', '>', '(', ')', '\n', '$', '`', '*', '?', '[',
    '~']

theorem step_ordinary {c : Char} (hc : c ∉ specials) (s : Scan) (hplain : s.mode = .plain)
    (hword : s.pending = .none ∨ ∃ pieces, s.pending = .word pieces) :
    s.step c = s.add [.lit c] := by
  have hops : ∀ text ∈ operators, text.length = 1 → ∀ d ∈ text, d ∈ specials := by
    simp [operators, specials]
  have hexpands : ∀ d ∈ expansions, d ∈ specials := by
    simp [expansions, specials]
  have hop : [c] ∉ operators := fun h => hc (hops [c] h rfl c List.mem_cons_self)
  have hexpand : c ∉ expansions := fun h => hc (hexpands c h)
  unfold specials at hc
  simp only [List.mem_cons, List.not_mem_nil, or_false, not_or] at hc
  obtain ⟨hsingle, hdouble, hback, hspace, htab, hhash, -⟩ := hc
  have hstart : s.start c = s.add [.lit c] := by
    unfold Scan.start
    simp [hsingle, hdouble, hspace, htab, hop, hhash, hexpand]
  unfold Scan.step
  rw [hplain]
  show s.plainStep c = _
  unfold Scan.plainStep
  rcases hword with hnone | ⟨pieces, hpieces⟩
  · rw [hnone]
    show (if c = '\\' then _ else s.start c) = _
    rw [if_neg hback, hstart]
  · rw [hpieces]
    show (if c = '\\' then _ else s.start c) = _
    rw [if_neg hback, hstart]

/-- Ordinary characters are read as they are. -/
theorem run_ordinary {text : PyStr} (h : ∀ c ∈ text, c ∉ specials) (ts : List Token)
    (w : PyStr) : (behind ts w).run text = behind ts (w ++ text) := by
  induction text generalizing w with
  | nil =>
      rw [List.append_nil]
      rfl
  | cons c rest ih =>
      have hstep : (behind ts w).step c = behind ts (w ++ [c]) := by
        rw [step_ordinary (h c List.mem_cons_self) _ rfl (.inr ⟨_, rfl⟩)]
        show (⟨ts, .word (w.map .lit ++ [.lit c]), .plain⟩ : Scan) = _
        unfold behind
        rw [List.map_append]
        rfl
      rw [Scan.run_cons, hstep, ih fun d hd => h d (List.mem_cons_of_mem c hd), List.append_assoc]
      rfl

/-- Text that is read as a word, from between two tokens. -/
def ReadsAs (text w : PyStr) : Prop :=
  ∀ ts : List Token, (between ts).run text = behind ts w

theorem readsAs_ordinary {text : PyStr} (hne : text ≠ [])
    (h : ∀ c ∈ text, c ∉ specials) : ReadsAs text text := by
  intro ts
  cases text with
  | nil => exact absurd rfl hne
  | cons c rest =>
      have hstep : (between ts).step c = behind ts [c] :=
        step_ordinary (h c List.mem_cons_self) _ rfl (.inl rfl)
      rw [Scan.run_cons, hstep, run_ordinary fun d hd => h d (List.mem_cons_of_mem c hd)]
      rfl

/-- A single-quoted character is read as it is. -/
theorem step_quoted {c : Char} (hc : c ≠ '\'') (ts : List Token) (w : PyStr) :
    (quoted ts w).step c = quoted ts (w ++ [c]) := by
  show (if c = '\'' then _ else (quoted ts w).add [.lit c]) = _
  rw [if_neg hc]
  show (⟨ts, .word (w.map .lit ++ [.lit c]), .single⟩ : Scan) = _
  unfold quoted
  rw [List.map_append]
  rfl

/-- A blank ends a word. -/
theorem run_blank (ts : List Token) (w rest : PyStr) :
    (behind ts w).run (' ' :: rest) = (between (ts ++ [literal w])).run rest := rfl

/-- `&&` is an operator, wherever it stands between blanks. -/
theorem run_and (ts : List Token) (rest : PyStr) :
    (between ts).run ('&' :: '&' :: ' ' :: rest) =
      (between (ts ++ [.op "&&".toList])).run rest := by
  have hone : ['&'] ∈ operators := by decide
  have htwo : ['&', '&'] ∈ operators := by decide
  have hthree : ['&', '&', ' '] ∉ operators := by decide
  have hfirst : (between ts).step '&' = ⟨ts, .op ['&'], .plain⟩ := by
    show (between ts).start '&' = _
    unfold Scan.start
    simp only [hone, if_true]
    rfl
  have hsecond : (⟨ts, .op ['&'], .plain⟩ : Scan).step '&' = ⟨ts, .op ['&', '&'], .plain⟩ := by
    unfold Scan.step Scan.plainStep
    simp only [List.singleton_append, htwo, if_true]
    rfl
  have hblank : (⟨ts, .op ['&', '&'], .plain⟩ : Scan).step ' ' =
      between (ts ++ [.op "&&".toList]) := by
    unfold Scan.step Scan.plainStep
    simp only [List.cons_append, List.nil_append, hthree, if_false]
    rfl
  rw [Scan.run_cons, hfirst, Scan.run_cons, hsecond, Scan.run_cons, hblank]

/-- Texts that are read as words, with blanks between them, are read as these words. -/
theorem finish_words {texts ws : List PyStr} (h : List.Forall₂ ReadsAs texts ws)
    (hne : texts ≠ []) (ts : List Token) :
    ((between ts).run ([' '].intercalate texts)).finish = some (ts ++ ws.map literal) := by
  induction h generalizing ts with
  | nil => exact absurd rfl hne
  | @cons text w texts ws hhead htail ih =>
      cases htail with
      | nil =>
          rw [List.intercalate_singleton, hhead ts]
          rfl
      | @cons text' w' texts ws hhead' htail =>
          rw [List.intercalate_cons_cons, Scan.run_append, Scan.run_append, hhead ts]
          show ((between (ts ++ [literal w])).run _).finish = _
          rw [ih (List.cons_ne_nil _ _), List.append_assoc]
          rfl

end SrxProbe.Lib.Shell
