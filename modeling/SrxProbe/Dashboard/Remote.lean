import SrxProbe.Dashboard.Binding
import SrxProbe.Lib.Shell

/-!
# The remote command line

In remote mode the command line is handed to a shell on the client as one string. The
shell reads every quoted token back as one word, so it runs the command line that was
put together here.
-/

namespace SrxProbe.Dashboard

open SrxProbe.Lib SrxProbe.Lib.Shell SrxProbe.Deploy

/-! ## Quoting -/

theorem ordinary_of_isShellSafe {c : Char} (h : isShellSafe c = true) : c ∉ specials := by
  have hspecials : ∀ d ∈ specials, isShellSafe d = false := by
    unfold specials
    simp only [List.mem_cons, List.not_mem_nil, or_false, forall_eq_or_imp, forall_eq]
    decide
  intro hc
  rw [hspecials c hc] at h
  cases h

/-- What a single-quoted text becomes inside its quotes. -/
def quoteBody (s : PyStr) : PyStr :=
  s.flatMap fun c => if c = '\'' then "'\"'\"'".toList else [c]

/-- In single quotes, the shell reads a quoted text as it was. -/
theorem run_quoteBody (s : PyStr) (ts : List Token) (w : PyStr) :
    (quoted ts w).run (quoteBody s) = quoted ts (w ++ s) := by
  induction s generalizing w with
  | nil =>
      rw [List.append_nil]
      rfl
  | cons c rest ih =>
      have hbody : quoteBody (c :: rest) =
          (if c = '\'' then "'\"'\"'".toList else [c]) ++ quoteBody rest := List.flatMap_cons
      have hchar : (quoted ts w).run (if c = '\'' then "'\"'\"'".toList else [c]) =
          quoted ts (w ++ [c]) := by
        by_cases hc : c = '\''
        · -- the quote closes, is read in double quotes, and opens again
          subst hc
          rw [if_pos rfl]
          show (⟨ts, .word (w.map .lit ++ [] ++ [.lit '\''] ++ []), .single⟩ : Scan) = _
          unfold quoted
          rw [List.map_append, List.append_nil, List.append_nil]
          rfl
        · rw [if_neg hc]
          exact step_quoted hc ts w
      rw [hbody, Scan.run_append, hchar, ih, List.append_assoc]
      rfl

/-- **The shell reads a quoted text as one word, the text itself.** -/
theorem readsAs_quote (s : PyStr) : ReadsAs (quote s) s := by
  unfold quote
  by_cases hnil : s = []
  · subst hnil
    rw [if_pos rfl]
    intro ts
    rfl
  · rw [if_neg hnil]
    by_cases hsafe : s.all isShellSafe = true
    · rw [if_pos hsafe]
      refine readsAs_ordinary hnil ?_
      intro c hc
      exact ordinary_of_isShellSafe (List.all_eq_true.mp hsafe c hc)
    · rw [if_neg hsafe]
      intro ts
      show ((between ts).step '\'').run (quoteBody s ++ "'".toList) = behind ts s
      have hopen : (between ts).step '\'' = quoted ts [] := rfl
      rw [hopen, Scan.run_append, run_quoteBody, List.nil_append]
      rfl

/-! ## The command -/

/-- The command line that is meant to run on the client. -/
def remoteArgv (repo : PyStr) (useSudo : Bool) (req : ValidRequest) : List PyStr :=
  (if useSudo then ["sudo".toList, "-n".toList] else []) ++
    [repo ++ "/venv/bin/python".toList, repo ++ "/deploy/srx_workload.py".toList] ++
    ["--target".toList, req.target] ++ (if req.src = [] then [] else ["--src".toList, req.src]) ++
    ["--yes".toList, req.workload] ++ paramTokens req.params

/-- What the shell has to find in the string: `cd`, the repository, `&&`, `exec` and the
command line, each token one word. -/
def remoteTokens (repo : PyStr) (argv : List PyStr) : List Token :=
  [literal "cd".toList, literal repo, .op "&&".toList, literal "exec".toList] ++ argv.map literal

/-- The string that is handed to the shell. -/
def remoteCommand (repo : PyStr) (argv : List PyStr) : PyStr :=
  "cd ".toList ++ quote repo ++ " && exec ".toList ++ [' '].intercalate (argv.map quote)

/-- The shell reads a line that is quoted token by token as these tokens. -/
theorem tokens_remote (repo : PyStr) {argv : List PyStr} (hne : argv ≠ []) :
    tokens (remoteCommand repo argv) = some (remoteTokens repo argv) := by
  have hwords : List.Forall₂ ReadsAs (argv.map quote) argv := by
    rw [List.forall₂_map_left_iff, List.forall₂_same]
    intro a _
    exact readsAs_quote a
  have hcd : (between []).run "cd ".toList = between [literal "cd".toList] := rfl
  have hexec : (between [literal "cd".toList, literal repo, .op "&&".toList]).run "exec ".toList =
      between [literal "cd".toList, literal repo, .op "&&".toList, literal "exec".toList] := by
    show (between _).run ("exec".toList ++ [' ']) = _
    rw [Scan.run_append, readsAs_ordinary (by simp) (by simp [specials]), run_blank]
    rfl
  have hand : (behind [literal "cd".toList] repo).run " && exec ".toList =
      between [literal "cd".toList, literal repo, .op "&&".toList, literal "exec".toList] := by
    show (behind _ repo).run (' ' :: '&' :: '&' :: ' ' :: "exec ".toList) = _
    rw [run_blank, run_and]
    exact hexec
  unfold tokens remoteCommand
  rw [Scan.run_append, Scan.run_append, Scan.run_append, hcd, readsAs_quote repo, hand,
    finish_words hwords (by simpa using hne)]
  rfl

/-- **The shell on the client finds the intended command line.** -/
theorem remote_argv {body : PyValue} {req : ValidRequest} (hok : validateRequest body = .ok req)
    {env : Env} (hremote : env.clientHost ≠ []) (rootOk : Bool) :
    ∃ spec command, workload? req.workload = some spec ∧
      req.params.map Prod.fst = spec.params.map ParamSpec.name ∧
      makeCmd env req.workload req.target req.src req.params rootOk =
        .ok (["ssh".toList, "-o".toList, "BatchMode=yes".toList, "-o".toList,
          "ServerAliveInterval=15".toList, "-o".toList, "ServerAliveCountMax=3".toList,
          "-tt".toList, env.clientHost, command], spec.root && rootOk) ∧
      tokens command = some (remoteTokens env.clientRepo
        (remoteArgv env.clientRepo (spec.root && rootOk) req)) := by
  obtain ⟨spec, h⟩ := admitted_of_ok hok
  obtain ⟨command, hfits⟩ := fits_of_mem (workload?_some h.known).1
  have hne : remoteArgv env.clientRepo (spec.root && rootOk) req ≠ [] := by
    unfold remoteArgv
    simp
  have hknown : workload? req.workload = some spec := h.workload ▸ h.known
  refine ⟨spec, remoteCommand env.clientRepo (remoteArgv env.clientRepo (spec.root && rootOk) req),
    hknown, h.names, ?_, tokens_remote env.clientRepo hne⟩
  unfold makeCmd
  rw [h.workload, h.known, orRaise_some, ok_bind]
  simp only [hremote, ne_eq, not_false_eq_true, if_true]
  rw [cliArgs_eq h hfits]
  unfold remoteCommand remoteArgv
  simp only [h.workload, List.append_assoc]

/-- A dashboard with a client whose repository has a blank and a quote in its path. -/
def remoteEnv : Env :=
  ⟨"user@203.0.113.10".toList, "/home/user/srx's copy".toList, "/opt/srx".toList, true,
    "python3".toList⟩

/-- A request whose path would be a command if it were not quoted. -/
def hostileRequest : ValidRequest :=
  ⟨"http".toList, "192.0.2.1".toList, [],
    [("port".toList, .int 80), ("path".toList, .str "/'; $(reboot) `id` && *".toList)], none⟩

theorem remote_argv_hostile :
    validateRequest (.dict [("workload".toList, .str "http".toList),
        ("target".toList, .str "192.0.2.1".toList), ("params".toList,
          .dict [("path".toList, .str "/'; $(reboot) `id` && *".toList)])]) =
      .ok hostileRequest ∧
    ∃ spec command, workload? hostileRequest.workload = some spec ∧
      hostileRequest.params.map Prod.fst = spec.params.map ParamSpec.name ∧
      makeCmd remoteEnv hostileRequest.workload hostileRequest.target hostileRequest.src
          hostileRequest.params true =
        .ok (["ssh".toList, "-o".toList, "BatchMode=yes".toList, "-o".toList,
          "ServerAliveInterval=15".toList, "-o".toList, "ServerAliveCountMax=3".toList,
          "-tt".toList, remoteEnv.clientHost, command], spec.root && true) ∧
      tokens command = some (remoteTokens remoteEnv.clientRepo
        (remoteArgv remoteEnv.clientRepo (spec.root && true) hostileRequest)) := by
  have hok : validateRequest (.dict [("workload".toList, .str "http".toList),
        ("target".toList, .str "192.0.2.1".toList), ("params".toList,
          .dict [("path".toList, .str "/'; $(reboot) `id` && *".toList)])]) =
      .ok hostileRequest := by decide
  exact ⟨hok, remote_argv hok (by decide) true⟩

end SrxProbe.Dashboard
