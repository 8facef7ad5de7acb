import SrxProbe.Dashboard.AdmissionSafety
import SrxProbe.Dashboard.Server

/-!
# Every run was asked for

Whatever requests come in and however their handling is interleaved: a run is there only
because of one request, which came from a page of an allowed origin and whose body is a
valid request for just that run. A request starts one run at most and gets one reply at
most, and a reply that names a run names one that runs what the request asked for.
-/

namespace SrxProbe.Dashboard

open SrxProbe.Lib SrxProbe.Lib.Http

/-! ## Requests for a run -/

/-- The request asks for a run: it comes from an allowed origin, and its body, as long as it
says and sent as a whole, is a valid request for the call. -/
structure Asks (rt : Runtime) (config : ServerConfig) (request : HttpRequest) (call : Call) :
    Prop where
  origin : ∃ origins, allowedOrigins rt.nfkcSafe rt.looksInside config = .ok origins ∧
    FromOrigin origins request.headers true
  path : ∃ p, urlparse rt.nfkcSafe request.target = some p ∧ p.path = "/api/run".toList
  media : getContentType request.headers = "application/json".toList
  unchunked : (get? request.headers "Transfer-Encoding").getD [] = []
  body : ∃ length text body req, contentLength request.headers = some length ∧
    length ≤ maxBody ∧ length ≤ request.sent.length ∧
    rt.decode (request.sent.take length) = .ok text ∧
    Json.loads rt.floatRepr rt.recursionLimit text = .ok body ∧ validateRequest body = .ok req ∧
    call.request = req.request ∧ call.requestId = req.requestId

section

variable {rt : Runtime} {config : ServerConfig} {request : HttpRequest}

theorem readBody_ok {length : Nat} {req : ValidRequest}
    (h : readBody rt request length = .ok req) : ∃ text body, length ≤ request.sent.length ∧
      rt.decode (request.sent.take length) = .ok text ∧
      Json.loads rt.floatRepr rt.recursionLimit text = .ok body ∧
      validateRequest body = .ok req := by
  obtain ⟨raw, hraw, h⟩ := bind_ok_iff.mp h
  obtain ⟨hlength, h⟩ := seq_ok_iff.mp h
  obtain ⟨text, htext, h⟩ := bind_ok_iff.mp h
  obtain ⟨body, hbody, hvalid⟩ := bind_ok_iff.mp h
  have hlength := Decidable.not_not.mp (raiseIf_ok_iff.mp hlength)
  unfold HttpRequest.read at hraw
  split at hraw
  · rename_i hle
    cases hraw
    exact ⟨text, body, hle, htext, hbody, hvalid⟩
  · rename_i hlong
    split at hraw
    · cases hraw
    · cases hraw
      exact absurd hlength (Nat.ne_of_lt (Nat.not_le.mp hlong))

theorem authorized_fromOrigin {origins : List PyStr} {mutation : Bool}
    (h : allowedOrigins rt.nfkcSafe rt.looksInside config = .ok origins)
    (hauth : authorized rt.nfkcSafe rt.looksInside config request.headers mutation = .ok none) :
    FromOrigin origins request.headers mutation := by
  rcases authorized_cases rt.nfkcSafe rt.looksInside h request.headers mutation with
    ⟨-, hfrom⟩ | ⟨reply, hbad, -⟩
  · exact hfrom
  · rw [hbad] at hauth
    cases hauth

theorem asks_of_spawn {call : Call} (h : doPost rt config request = .ok (.spawn call)) :
    Asks rt config request call := by
  unfold doPost at h
  obtain ⟨refusal, hauth, h⟩ := bind_ok_iff.mp h
  split at h
  · cases h
  obtain ⟨origins, horigins, -⟩ := bind_ok_iff.mp hauth
  have hfrom := authorized_fromOrigin horigins hauth
  obtain ⟨p, hp, h⟩ := bind_ok_iff.mp h
  have hp := orRaise_ok_iff.mp hp
  split at h
  · cases h
  rename_i hchunked
  split at h
  · cases h
  rename_i length hlength
  split at h
  · cases h
  rename_i hmax
  split at h
  · rename_i hpath
    split at h
    · cases h
    rename_i hmedia
    split at h
    · rename_i req hbody
      cases h
      obtain ⟨text, body, hsent, htext, hloads, hvalid⟩ := readBody_ok hbody
      exact ⟨⟨origins, horigins, hfrom⟩, ⟨p, hp, hpath⟩, Decidable.not_not.mp hmedia,
        Decidable.not_not.mp hchunked, length, text, body, req, hlength, Nat.not_lt.mp hmax,
        hsent, htext, hloads, hvalid, rfl, rfl⟩
    · split at h
      · cases h
      · cases h
  · split at h
    · split at h
      · cases h
      · cases h
    · cases h

end

/-! ## Runs in the registry -/

namespace Run

/-- The same run, as far as anything was asked for. -/
def SameRun (r r' : Run) : Prop :=
  r'.id = r.id ∧ r'.cmdline = r.cmdline ∧ r'.workload = r.workload ∧
    r'.requestId = r.requestId ∧ r'.request = r.request

theorem SameRun.refl (r : Run) : SameRun r r := ⟨rfl, rfl, rfl, rfl, rfl⟩

theorem Effect.sameRun {r r' : Run} {op : Op} (h : Effect r op r') : SameRun r r' := by
  cases h <;> exact ⟨rfl, rfl, rfl, rfl, rfl⟩

end Run

namespace Registry

/-- No run is taken away or made another. -/
structure Fixed (s s' : Registry) : Prop where
  grows : s.nextAddr ≤ s'.nextAddr
  same : ∀ a < s.nextAddr, (s.heap a).SameRun (s'.heap a)

/-- The call holds `RUNS_LOCK`. -/
def HeldBy (s : Registry) (call : Call) : Prop :=
  ∃ rest, s.holder = .scanning call rest ∨ s.holder = .polling call rest

theorem reachable_step {s s' : Registry} {act : AdmitAct} (h : system.Reachable s)
    (hstep : s.step act = some s') : system.Reachable s' := by
  refine TSys.Reachable.step h (a := act) ?_
  exact hstep

theorem Fixed.of_heap {s s' : Registry} (hheap : s'.heap = s.heap)
    (hnext : s'.nextAddr = s.nextAddr) : Fixed s s' where
  grows := Nat.le_of_eq hnext.symm
  same := by
    intro a _
    rw [hheap]
    exact .refl _

theorem HeldBy.scanning {s : Registry} {call call' : Call} {rest : List Addr}
    (h : s.HeldBy call) (hholder : s.holder = .scanning call' rest) : call' = call := by
  obtain ⟨rest', h | h⟩ := h
  · rw [hholder] at h
    cases h
    rfl
  · rw [hholder] at h
    cases h

theorem HeldBy.polling {s : Registry} {call call' : Call} {rest : List Addr}
    (h : s.HeldBy call) (hholder : s.holder = .polling call' rest) : call' = call := by
  obtain ⟨rest', h | h⟩ := h
  · rw [hholder] at h
    cases h
  · rw [hholder] at h
    cases h
    rfl

/-- What a look may answer: the run of the same request, or an error. -/
def LookAnswer (s : Registry) (call : Call) : Outcome → Prop
  | .existing a => a < s.nextAddr ∧ (s.heap a).request = some call.request ∧
      (s.heap a).requestId = call.requestId
  | .raised err => err = usedError ∨ err = activeError
  | .admitted _ => False

/-- A look goes on, or answers the call. -/
theorem look_settles {s s' : Registry} (hinv : s.Inv) {call : Call} (hheld : s.HeldBy call)
    (h : s.look = some s') : s'.nextAddr = s.nextAddr ∧ s'.heap = s.heap ∧
      (s'.HeldBy call ∨ s'.holder = .free ∧ ∃ outcome,
        s'.answered = s.answered ++ [(call, outcome)] ∧ LookAnswer s call outcome) := by
  cases look_cases h with
  | conflict call' a rest hpc _ _ =>
      obtain rfl := hheld.scanning hpc
      exact ⟨rfl, rfl, .inr ⟨rfl, _, rfl, .inl rfl⟩⟩
  | repeated call' a rest hpc hmatch hrequest =>
      obtain rfl := hheld.scanning hpc
      have hscan := hinv.holder
      simp only [HolderInv, hpc] at hscan
      obtain ⟨seen, hvalues, -⟩ := hscan
      have ha : a ∈ s.runs.values := hvalues ▸ List.mem_append_right _ List.mem_cons_self
      exact ⟨rfl, rfl, .inr ⟨rfl, _, rfl, hinv.allocated a ha, hrequest, hmatch.2⟩⟩
  | other call' a rest hpc _ =>
      obtain rfl := hheld.scanning hpc
      exact ⟨rfl, rfl, .inl ⟨rest, .inl rfl⟩⟩
  | scanned call' hpc =>
      obtain rfl := hheld.scanning hpc
      exact ⟨rfl, rfl, .inl ⟨_, .inr rfl⟩⟩
  | busy call' a rest hpc _ =>
      obtain rfl := hheld.polling hpc
      exact ⟨rfl, rfl, .inr ⟨rfl, _, rfl, .inr rfl⟩⟩
  | ended call' a rest hpc _ =>
      obtain rfl := hheld.polling hpc
      exact ⟨rfl, rfl, .inl ⟨rest, .inr rfl⟩⟩

/-- An insertion admits the call that holds the lock. -/
theorem insert_settles {s s' : Registry} {call : Call} (hheld : s.HeldBy call)
    {id cmdline : PyStr} {now : Time} (h : s.step (.insert id cmdline now) = some s') :
    Fixed s s' ∧ s'.nextAddr = s.nextAddr + 1 ∧ s'.holder = .free ∧
      s'.answered = s.answered ++ [(call, .admitted s.nextAddr)] ∧
      s'.heap s.nextAddr = newRun call id cmdline now := by
  obtain ⟨call', hpolling, rfl⟩ := insert_cases h
  obtain rfl := hheld.polling hpolling
  refine ⟨⟨Nat.le_succ _, ?_⟩, rfl, rfl, rfl, update_self _ _ _⟩
  intro a ha
  show (s.heap a).SameRun (update s.heap s.nextAddr _ a)
  rw [update_of_ne _ _ (Nat.ne_of_lt ha)]
  exact .refl _

/-- A run of the registry stays the run it is, whatever becomes of it. -/
theorem op_fixed {s s' : Registry} (hinv : s.Inv) {a : Addr} {op : Op}
    (h : s.step (.op a op) = some s') :
    Fixed s s' ∧ s'.nextAddr = s.nextAddr ∧ s'.holder = s.holder := by
  simp only [Registry.step] at h
  split at h
  · rename_i ha
    split at h
    · rename_i r hexec
      cases h
      have heffect := Run.exec_effect (hinv.runs a ha).subs.nodup hexec
      refine ⟨⟨Nat.le_refl _, ?_⟩, rfl, rfl⟩
      intro b _
      show (s.heap b).SameRun (update s.heap a r b)
      by_cases hb : b = a
      · subst hb
        rw [update_self]
        exact heffect.sameRun
      · rw [update_of_ne _ _ hb]
        exact .refl _
    · cases h
  · cases h

end Registry

/-! ## Jobs -/

/-- The outcome belongs to the call. -/
def OutcomeFits (registry : Registry) (call : Call) (cmdline : PyStr) : Outcome → Prop
  | .existing a => a < registry.nextAddr ∧ (registry.heap a).request = some call.request ∧
      (registry.heap a).requestId = call.requestId
  | .admitted a => a < registry.nextAddr ∧ (registry.heap a).request = some call.request ∧
      (registry.heap a).requestId = call.requestId ∧ (registry.heap a).cmdline = cmdline ∧
      (registry.heap a).workload = call.request.workload
  | .raised err => err = usedError ∨ err = activeError

theorem OutcomeFits.fixed {registry registry' : Registry} {call : Call} {cmdline : PyStr}
    {outcome : Outcome} (h : OutcomeFits registry call cmdline outcome)
    (hfixed : registry.Fixed registry') : OutcomeFits registry' call cmdline outcome := by
  cases outcome with
  | raised err => exact h
  | existing a =>
      obtain ⟨ha, hrequest, hid⟩ := h
      obtain ⟨-, -, -, hid', hrequest'⟩ := hfixed.same a ha
      exact ⟨Nat.lt_of_lt_of_le ha hfixed.grows, hrequest'.trans hrequest, hid'.trans hid⟩
  | admitted a =>
      obtain ⟨ha, hrequest, hid, hcmdline, hworkload⟩ := h
      obtain ⟨-, hcmdline', hworkload', hid', hrequest'⟩ := hfixed.same a ha
      exact ⟨Nat.lt_of_lt_of_le ha hfixed.grows, hrequest'.trans hrequest, hid'.trans hid,
        hcmdline'.trans hcmdline, hworkload'.trans hworkload⟩

/-- A reply names what it names for good. -/
theorem spawnReply_fixed {registry registry' : Registry} {call : Call} {cmdline : PyStr}
    {outcome : Outcome} (h : OutcomeFits registry call cmdline outcome)
    (hfixed : registry.Fixed registry') :
    spawnReply registry'.heap outcome = spawnReply registry.heap outcome := by
  cases outcome with
  | raised err => cases err <;> rfl
  | existing a =>
      obtain ⟨hid, hcmdline, -⟩ := hfixed.same a h.1
      simp only [spawnReply, hid, hcmdline]
  | admitted a =>
      obtain ⟨hid, hcmdline, -⟩ := hfixed.same a h.1
      simp only [spawnReply, hid, hcmdline]

section

variable (rt : Runtime) (config : ServerConfig) (env : Env)

/-- What is true of a request that is or was handled. -/
structure JobInv (registry : Registry) (job : Job) : Prop where
  asked : ∀ call cmdline, job.launch = some (call, cmdline) → Asks rt config job.request call ∧
    ∃ hasVenv, commandLine { env with hasVenv } call = .ok cmdline
  fits : ∀ outcome, job.outcome = some outcome →
    ∃ call cmdline, job.launch = some (call, cmdline) ∧ OutcomeFits registry call cmdline outcome
  pending : job.pc = .spawning ∨ job.pc = .admitting → job.outcome = none
  replied : ∀ reply launch, job.pc = .done (some reply) → job.launch = some launch →
    ∃ outcome, job.outcome = some outcome ∧ spawnReply registry.heap outcome = some reply
  other : ∀ id a, job.pc = .finding id ∨ job.pc = .stopping a → job.launch = none

variable {rt config env}

theorem JobInv.fixed {registry registry' : Registry} {job : Job}
    (h : JobInv rt config env registry job) (hfixed : registry.Fixed registry') :
    JobInv rt config env registry' job where
  asked := h.asked
  fits := by
    intro outcome houtcome
    obtain ⟨call, cmdline, hlaunch, hfits⟩ := h.fits outcome houtcome
    exact ⟨call, cmdline, hlaunch, hfits.fixed hfixed⟩
  pending := h.pending
  replied := by
    intro reply launch hpc hlaunch
    obtain ⟨outcome, houtcome, hreply⟩ := h.replied reply launch hpc hlaunch
    obtain ⟨call, cmdline, -, hfits⟩ := h.fits outcome houtcome
    exact ⟨outcome, houtcome, (spawnReply_fixed hfits hfixed).trans hreply⟩
  other := h.other

theorem jobInv_handlePost (rt : Runtime) (config : ServerConfig) (env : Env)
    (registry : Registry) (request : HttpRequest) (hasVenv : Bool) :
    JobInv rt config env registry (handlePost rt config { env with hasVenv } request) ∧
      (handlePost rt config { env with hasVenv } request).outcome = none ∧
      (handlePost rt config { env with hasVenv } request).pc ≠ .admitting := by
  unfold handlePost
  split
  · refine ⟨⟨?_, ?_, ?_, ?_, ?_⟩, rfl, ?_⟩ <;> simp
  · refine ⟨⟨?_, ?_, ?_, ?_, ?_⟩, rfl, ?_⟩ <;> simp
  · refine ⟨⟨?_, ?_, ?_, ?_, ?_⟩, rfl, ?_⟩ <;> simp
  · rename_i call hpost
    split
    · rename_i cmdline hcmd
      refine ⟨⟨?_, ?_, ?_, ?_, ?_⟩, rfl, ?_⟩
      · intro call' cmdline' hlaunch
        cases hlaunch
        exact ⟨asks_of_spawn hpost, hasVenv, hcmd⟩
      all_goals simp
    · refine ⟨⟨?_, ?_, ?_, ?_, ?_⟩, rfl, ?_⟩ <;> simp

/-! ## The invariant -/

variable (rt config env)

structure Server.Inv (s : Server) : Prop where
  registry : Registry.system.Reachable s.registry
  jobs : ∀ job ∈ s.jobs, JobInv rt config env s.registry job
  /-- who owns the lock is in the block, with the call that the registry works on -/
  owner : ∀ i, s.owner = some i → ∃ job call cmdline, s.jobs[i]? = some job ∧
    job.pc = .admitting ∧ job.launch = some (call, cmdline) ∧ s.registry.HeldBy call
  free : s.owner = none → s.registry.holder = .free
  /-- every run was admitted for a request … -/
  made : ∀ a < s.registry.nextAddr, ∃ (i : Nat) (job : Job), s.jobs[i]? = some job ∧
    job.outcome = some (.admitted a)
  /-- … and for one only -/
  once : ∀ (i j : Nat) (job job' : Job) a, s.jobs[i]? = some job → s.jobs[j]? = some job' →
    job.outcome = some (.admitted a) → job'.outcome = some (.admitted a) → i = j

variable {rt config env}

namespace Server

variable {s : Server}

theorem Inv.job (h : s.Inv rt config env) {i : Nat} {job : Job} (hi : s.jobs[i]? = some job) :
    JobInv rt config env s.registry job := h.jobs job (List.mem_of_getElem? hi)

/-- A job that is changed without a new outcome, over a registry that keeps its runs. -/
theorem Inv.set {registry : Registry} {i : Nat} {job job' : Job} {owner : Option Nat}
    (h : s.Inv rt config env) (hi : s.jobs[i]? = some job)
    (hreach : Registry.system.Reachable registry) (hfixed : s.registry.Fixed registry)
    (hnext : registry.nextAddr = s.registry.nextAddr)
    (hjob : JobInv rt config env registry job')
    (houtcome : ∀ a, job'.outcome = some (.admitted a) ↔ job.outcome = some (.admitted a))
    (howner : ∀ j, owner = some j → ∃ job call cmdline, (s.jobs.set i job')[j]? = some job ∧
      job.pc = .admitting ∧ job.launch = some (call, cmdline) ∧ registry.HeldBy call)
    (hfree : owner = none → registry.holder = .free) :
    Server.Inv rt config env ⟨registry, s.jobs.set i job', owner⟩ := by
  have hlt : i < s.jobs.length := (List.getElem?_eq_some_iff.mp hi).1
  -- an outcome that is there now was there before
  have hback : ∀ (j : Nat) (k : Job) a, (s.jobs.set i job')[j]? = some k →
      k.outcome = some (.admitted a) →
      ∃ k' : Job, s.jobs[j]? = some k' ∧ k'.outcome = some (.admitted a) := by
    intro j k a hk hout
    rw [List.getElem?_set] at hk
    split at hk
    · rename_i hij
      subst hij
      obtain rfl := Option.some.inj hk
      exact ⟨job, hi, (houtcome a).mp hout⟩
    · exact ⟨k, hk, hout⟩
  refine ⟨hreach, ?_, howner, hfree, ?_, ?_⟩
  · intro k hk
    rcases List.mem_or_eq_of_mem_set hk with hk | rfl
    · exact (h.jobs k hk).fixed hfixed
    · exact hjob
  · intro a ha
    rw [hnext] at ha
    obtain ⟨j, k, hj, hout⟩ := h.made a ha
    by_cases hij : i = j
    · subst hij
      obtain rfl := Option.some.inj (hi.symm.trans hj)
      exact ⟨i, job', by rw [List.getElem?_set_self hlt], (houtcome a).mpr hout⟩
    · exact ⟨j, k, by rw [List.getElem?_set_ne hij, hj], hout⟩
  · intro j j' k k' a hj hj' hout hout'
    obtain ⟨l, hl, hlout⟩ := hback j k a hj hout
    obtain ⟨l', hl', hlout'⟩ := hback j' k' a hj' hout'
    exact h.once j j' l l' a hl hl' hlout hlout'

/-- The registry takes a step of its own, and the lock is held as before. -/
theorem Inv.registry_step {registry : Registry} (h : s.Inv rt config env)
    (hreach : Registry.system.Reachable registry) (hfixed : s.registry.Fixed registry)
    (hnext : registry.nextAddr = s.registry.nextAddr)
    (hheld : ∀ call, s.registry.HeldBy call → registry.HeldBy call)
    (hfree : s.registry.holder = .free → registry.holder = .free) :
    Server.Inv rt config env { s with registry } := by
  refine ⟨hreach, fun job hjob => (h.jobs job hjob).fixed hfixed, ?_, fun hnone =>
    hfree (h.free hnone), fun a ha => h.made a (hnext ▸ ha), h.once⟩
  intro i hi
  obtain ⟨job, call, cmdline, hjob, hpc, hlaunch, hholds⟩ := h.owner i hi
  exact ⟨job, call, cmdline, hjob, hpc, hlaunch, hheld call hholds⟩

theorem Inv.post (h : s.Inv rt config env) (request : HttpRequest) (hasVenv : Bool) :
    Server.Inv rt config env
      { s with jobs := s.jobs ++ [handlePost rt config { env with hasVenv } request] } := by
  obtain ⟨hjob, hnone, -⟩ :=
    jobInv_handlePost rt config env s.registry request hasVenv
  have hold : ∀ (j : Nat) (k : Job), s.jobs[j]? = some k →
      (s.jobs ++ [handlePost rt config { env with hasVenv } request])[j]? = some k := by
    intro j k hk
    rw [List.getElem?_append_left (List.getElem?_eq_some_iff.mp hk).1, hk]
  -- the new job has no outcome yet
  have hback : ∀ (j : Nat) (k : Job) a,
      (s.jobs ++ [handlePost rt config { env with hasVenv } request])[j]? = some k →
      k.outcome = some (.admitted a) → s.jobs[j]? = some k := by
    intro j k a hk hout
    rw [List.getElem?_append] at hk
    split at hk
    · exact hk
    · rw [List.getElem?_singleton] at hk
      split at hk
      · obtain rfl := Option.some.inj hk
        rw [hnone] at hout
        cases hout
      · cases hk
  refine ⟨h.registry, ?_, ?_, h.free, ?_, ?_⟩
  · intro k hk
    rcases List.mem_append.mp hk with hk | hk
    · exact h.jobs k hk
    · obtain rfl := List.mem_singleton.mp hk
      exact hjob
  · intro i hi
    obtain ⟨job, call, cmdline, hjob, hrest⟩ := h.owner i hi
    exact ⟨job, call, cmdline, hold i job hjob, hrest⟩
  · intro a ha
    obtain ⟨i, job, hi, hout⟩ := h.made a ha
    exact ⟨i, job, hold i job hi, hout⟩
  · intro i j k k' a hi hj hout hout'
    exact h.once i j k k' a (hback i k a hi hout) (hback j k' a hj hout') hout hout'

/-- The state of the registry's own model. -/
theorem Inv.registryInv (h : s.Inv rt config env) : s.registry.Inv :=
  Registry.inv_invariant s.registry h.registry

theorem Inv.enter {s' : Server} (h : s.Inv rt config env) {i : Nat}
    (hstep : s.step rt config env (.enter i) = some s') : s'.Inv rt config env := by
  simp only [Server.step, Option.bind_eq_bind, Option.bind_eq_some_iff] at hstep
  obtain ⟨job, hi, hstep⟩ := hstep
  split at hstep
  · rename_i call cmdline hpc hlaunch
    obtain ⟨registry, hregistry, hstep⟩ := Option.bind_eq_some_iff.mp hstep
    cases hstep
    have hreach := Registry.reachable_step h.registry hregistry
    -- the lock was free, so the call now has it
    have hshape : registry =
        { s.registry with holder := .scanning call s.registry.runs.values } := by
      simp only [Registry.step] at hregistry
      split at hregistry
      · cases hregistry
        rfl
      · cases hregistry
    have hlt := (List.getElem?_eq_some_iff.mp hi).1
    have hjob := h.job hi
    have hfixed : s.registry.Fixed registry := by
      rw [hshape]
      exact .of_heap rfl rfl
    refine h.set hi hreach hfixed (by rw [hshape]) ?_ (fun a => Iff.rfl) ?_ (by simp)
    · have hjob := hjob.fixed hfixed
      exact
        { asked := hjob.asked
          fits := hjob.fits
          pending := fun _ => hjob.pending (.inl hpc)
          replied := by simp
          other := by simp }
    · intro j hj
      cases hj
      refine ⟨_, call, cmdline, List.getElem?_set_self hlt, rfl, hlaunch, ?_⟩
      rw [hshape]
      exact ⟨_, .inl rfl⟩
  · cases hstep

/-- The owner of the lock with its job and the call that the registry works on. -/
theorem Inv.settle_look {registry : Registry} {i : Nat} {job : Job} (h : s.Inv rt config env)
    (howner : s.owner = some i) (hi : s.jobs[i]? = some job)
    (hregistry : s.registry.step .look = some registry) :
    (s.settle i job registry).Inv rt config env := by
  obtain ⟨job', call, cmdline, hi', hpc, hlaunch, hheld⟩ := h.owner i howner
  obtain rfl := Option.some.inj (hi.symm.trans hi')
  have hreach := Registry.reachable_step h.registry hregistry
  obtain ⟨hnext, hheap, hcase⟩ := Registry.look_settles h.registryInv hheld hregistry
  have hfixed : s.registry.Fixed registry := .of_heap hheap hnext
  have hjob := (h.job hi).fixed hfixed
  rcases hcase with hheld' | ⟨hfree, outcome, hanswered, hlook⟩
  · have hsettle : s.settle i job registry = { s with registry } := by
      obtain ⟨rest, hrest | hrest⟩ := hheld'
      all_goals
        unfold settle
        rw [hrest]
    rw [hsettle]
    refine ⟨hreach, fun k hk => (h.jobs k hk).fixed hfixed, ?_, ?_,
      fun a ha => h.made a (hnext ▸ ha), h.once⟩
    · intro j hj
      obtain rfl := Option.some.inj (howner.symm.trans hj)
      exact ⟨job, call, cmdline, hi, hpc, hlaunch, hheld'⟩
    · intro hnone
      rw [howner] at hnone
      cases hnone
  · have hsettle : s.settle i job registry = ⟨registry,
        s.jobs.set i { job with pc := .starting, outcome := some outcome }, none⟩ := by
      unfold settle
      rw [hfree, hanswered, List.getLast?_concat]
    rw [hsettle]
    refine h.set hi hreach hfixed hnext ?_ ?_ (by simp) (fun _ => hfree)
    · refine ⟨hjob.asked, ?_, by simp, by simp, by simp⟩
      intro outcome' heq
      cases heq
      refine ⟨call, cmdline, hlaunch, ?_⟩
      have hanswer : OutcomeFits s.registry call cmdline outcome := by
        cases outcome with
        | existing a => exact hlook
        | raised err => exact hlook
        | admitted a => exact hlook.elim
      exact hanswer.fixed hfixed
    · -- a look admits nothing
      intro a
      rw [(h.job hi).pending (.inr hpc)]
      constructor
      · intro heq
        cases heq
        exact hlook.elim
      · intro heq
        cases heq

theorem Inv.settle_insert {registry : Registry} {i : Nat} {job : Job} {call' : Call}
    {id cmdline' : PyStr} {now : Time} (h : s.Inv rt config env) (howner : s.owner = some i)
    (hi : s.jobs[i]? = some job) (hjobLaunch : job.launch = some (call', cmdline'))
    (hregistry : s.registry.step (.insert id cmdline' now) = some registry) :
    (s.settle i job registry).Inv rt config env := by
  obtain ⟨job', call, cmdline, hi', hpc, hlaunch, hheld⟩ := h.owner i howner
  obtain rfl := Option.some.inj (hi.symm.trans hi')
  obtain ⟨rfl, rfl⟩ := Prod.mk.inj (Option.some.inj (hlaunch.symm.trans hjobLaunch))
  have hreach := Registry.reachable_step h.registry hregistry
  obtain ⟨hfixed, hnext, hfree, hanswered, hnew⟩ := Registry.insert_settles hheld hregistry
  have hlt := (List.getElem?_eq_some_iff.mp hi).1
  have hout := (h.job hi).pending (.inr hpc)
  have hjob := (h.job hi).fixed hfixed
  have hsettle : s.settle i job registry = ⟨registry, s.jobs.set i { job with
      pc := .starting, outcome := some (.admitted s.registry.nextAddr) }, none⟩ := by
    unfold settle
    rw [hfree, hanswered, List.getLast?_concat]
  rw [hsettle]
  -- the outcomes of the others are of older runs
  have hold : ∀ (j : Nat) (k : Job) a, i ≠ j → s.jobs[j]? = some k →
      k.outcome = some (.admitted a) → a < s.registry.nextAddr := by
    intro j k a _ hk hadmitted
    obtain ⟨call', cmdline', -, hfits⟩ := (h.job hk).fits _ hadmitted
    exact hfits.1
  refine ⟨hreach, ?_, by simp, fun _ => hfree, ?_, ?_⟩
  · intro k hk
    rcases List.mem_or_eq_of_mem_set hk with hk | rfl
    · exact (h.jobs k hk).fixed hfixed
    · refine ⟨hjob.asked, ?_, by simp, by simp, by simp⟩
      intro outcome heq
      cases heq
      refine ⟨call, cmdline, hlaunch, ?_, ?_, ?_, ?_, ?_⟩
      · rw [hnext]
        exact Nat.lt_succ_self _
      all_goals
        rw [hnew]
        rfl
  · intro a ha
    rw [hnext] at ha
    by_cases heq : a = s.registry.nextAddr
    · subst heq
      exact ⟨i, _, List.getElem?_set_self hlt, rfl⟩
    · obtain ⟨j, k, hj, hadmitted⟩ := h.made a (Nat.lt_of_le_of_ne (Nat.le_of_lt_succ ha) heq)
      have hij : i ≠ j := by
        rintro rfl
        obtain rfl := Option.some.inj (hi.symm.trans hj)
        rw [hout] at hadmitted
        cases hadmitted
      exact ⟨j, k, by rw [List.getElem?_set_ne hij, hj], hadmitted⟩
  · intro j j' k k' a hj hj' hadmitted hadmitted'
    by_cases hij : i = j
    · by_cases hij' : i = j'
      · exact hij.symm.trans hij'
      · -- the run of the new outcome is new
        subst hij
        rw [List.getElem?_set_self hlt] at hj
        obtain rfl := Option.some.inj hj
        obtain rfl := Outcome.admitted.inj (Option.some.inj hadmitted)
        rw [List.getElem?_set_ne hij'] at hj'
        exact absurd (hold j' k' _ hij' hj' hadmitted') (Nat.lt_irrefl _)
    · rw [List.getElem?_set_ne hij] at hj
      by_cases hij' : i = j'
      · subst hij'
        rw [List.getElem?_set_self hlt] at hj'
        obtain rfl := Option.some.inj hj'
        obtain rfl := Outcome.admitted.inj (Option.some.inj hadmitted')
        exact absurd (hold j k _ hij hj hadmitted) (Nat.lt_irrefl _)
      · rw [List.getElem?_set_ne hij'] at hj'
        exact h.once j j' k k' a hj hj' hadmitted hadmitted'

/-- A job in none of the calls of `spawn_run` gets a reply or goes on. -/
theorem Inv.set_other {i : Nat} {job : Job} {pc : JobPc} (h : s.Inv rt config env)
    (hi : s.jobs[i]? = some job) (hpc : job.pc ≠ .admitting)
    (hjob : JobInv rt config env s.registry { job with pc }) :
    (s.setJob i { job with pc }).Inv rt config env := by
  have hlt := (List.getElem?_eq_some_iff.mp hi).1
  refine h.set hi h.registry (.of_heap rfl rfl) rfl hjob (fun a => Iff.rfl) ?_ h.free
  intro j hj
  obtain ⟨job', call, cmdline, hj', hpc'', hrest⟩ := h.owner j hj
  have hij : i ≠ j := by
    rintro rfl
    obtain rfl := Option.some.inj (hi.symm.trans hj')
    exact hpc hpc''
  exact ⟨job', call, cmdline, by rw [List.getElem?_set_ne hij, hj'], hpc'', hrest⟩

theorem Inv.step {s' : Server} {act : ServerAct} (h : s.Inv rt config env)
    (hstep : s.step rt config env act = some s') : s'.Inv rt config env := by
  cases act with
  | post request hasVenv =>
      simp only [Server.step] at hstep
      split at hstep
      · cases hstep
        exact h.post request hasVenv
      · cases hstep
  | enter i => exact h.enter hstep
  | look =>
      obtain ⟨i, howner, hstep⟩ := Option.bind_eq_some_iff.mp hstep
      obtain ⟨job, hi, hstep⟩ := Option.bind_eq_some_iff.mp hstep
      obtain ⟨registry, hregistry, rfl⟩ := Option.map_eq_some_iff.mp hstep
      exact h.settle_look howner hi hregistry
  | insert id now =>
      obtain ⟨i, howner, hstep⟩ := Option.bind_eq_some_iff.mp hstep
      obtain ⟨job, hi, hstep⟩ := Option.bind_eq_some_iff.mp hstep
      obtain ⟨⟨call, cmdline⟩, hlaunch, hstep⟩ := Option.bind_eq_some_iff.mp hstep
      obtain ⟨registry, hregistry, rfl⟩ := Option.map_eq_some_iff.mp hstep
      exact h.settle_insert howner hi hlaunch hregistry
  | start a =>
      obtain ⟨registry, hregistry, rfl⟩ := Option.map_eq_some_iff.mp hstep
      have hreach := Registry.reachable_step h.registry hregistry
      simp only [Registry.step] at hregistry
      split at hregistry
      · cases hregistry
        exact h.registry_step hreach (.of_heap rfl rfl) rfl (fun _ hheld => hheld) id
      · cases hregistry
  | op a op =>
      obtain ⟨registry, hregistry, rfl⟩ := Option.map_eq_some_iff.mp hstep
      obtain ⟨hfixed, hnext, hholder⟩ := Registry.op_fixed h.registryInv hregistry
      refine h.registry_step (Registry.reachable_step h.registry hregistry) hfixed hnext ?_ ?_
      · rintro call ⟨rest, hrest⟩
        exact ⟨rest, hholder ▸ hrest⟩
      · intro hfree
        rw [hholder, hfree]
  | reply i =>
      obtain ⟨job, hi, hstep⟩ := Option.bind_eq_some_iff.mp hstep
      split at hstep
      · rename_i outcome hpc hout
        split at hstep
        · cases hstep
          have hjob := h.job hi
          refine h.set_other hi (by simp [hpc]) ⟨hjob.asked, hjob.fits, by simp, ?_, by simp⟩
          intro reply launch hreply hlaunch
          exact ⟨outcome, hout, by simpa using hreply⟩
        · cases hstep
      · cases hstep
  | find i =>
      obtain ⟨job, hi, hstep⟩ := Option.bind_eq_some_iff.mp hstep
      split at hstep
      · rename_i id hpc hfree
        have hjob := h.job hi
        have hlaunch := hjob.other id 0 (.inl hpc)
        split at hstep
        · cases hstep
          refine h.set_other hi (by simp [hpc]) ⟨hjob.asked, hjob.fits, by simp, ?_, by simp⟩
          intro reply launch _ hlaunch'
          rw [hlaunch] at hlaunch'
          cases hlaunch'
        · cases hstep
          exact h.set_other hi (by simp [hpc])
            ⟨hjob.asked, hjob.fits, by simp, by simp, fun _ _ _ => hlaunch⟩
      · cases hstep
  | stopped i killed =>
      obtain ⟨job, hi, hstep⟩ := Option.bind_eq_some_iff.mp hstep
      split at hstep
      · rename_i a hpc
        cases hstep
        have hjob := h.job hi
        have hlaunch := hjob.other [] a (.inr hpc)
        refine h.set_other hi (by simp [hpc]) ⟨hjob.asked, hjob.fits, by simp, ?_, by simp⟩
        intro reply launch _ hlaunch'
        rw [hlaunch] at hlaunch'
        cases hlaunch'
      · cases hstep

theorem inv_invariant (rt : Runtime) (config : ServerConfig) (env : Env) :
    (system rt config env).Invariant (Server.Inv rt config env) := by
  refine TSys.Inductive.invariant ⟨?_, fun s act s' h hstep => h.step hstep⟩
  rintro s ⟨-, hregistry, hjobs, howner⟩
  have hnext : s.registry.nextAddr = 0 := hregistry.1
  have hholder : s.registry.holder = .free := hregistry.2.2.1
  refine ⟨.init hregistry, ?_, ?_, fun _ => hholder, ?_, ?_⟩
  · rw [hjobs]
    exact nofun
  · rw [howner]
    exact nofun
  · rw [hnext]
    exact nofun
  · rw [hjobs]
    intro i j job job' a hi
    simp at hi

end Server

/-! ## What the dashboard does -/

variable (rt config env)

/-- The body of a reply that names a run. -/
def startedReply (r : Run) : Reply :=
  jsonReply 200 (.dict [("id".toList, .str r.id), ("cmd".toList, .str r.cmdline)])

structure ServerSafe (s : Server) : Prop where
  /-- the registry is one that calls of `spawn_run` lead to -/
  registry : Registry.system.Reachable s.registry
  /-- every run was admitted for a request that asks for just this run, and runs the command
  line of that request -/
  asked : ∀ a < s.registry.nextAddr, ∃ (i : Nat) (job : Job) (call : Call) (cmdline : PyStr)
    (hasVenv : Bool), s.jobs[i]? = some job ∧ job.outcome = some (.admitted a) ∧
    Asks rt config job.request call ∧ commandLine { env with hasVenv } call = .ok cmdline ∧
    (s.registry.heap a).request = some call.request ∧
    (s.registry.heap a).requestId = call.requestId ∧ (s.registry.heap a).cmdline = cmdline
  /-- … and for no other -/
  once : ∀ (i j : Nat) (job job' : Job) a, s.jobs[i]? = some job → s.jobs[j]? = some job' →
    job.outcome = some (.admitted a) → job'.outcome = some (.admitted a) → i = j
  /-- a request for a run is told of a run of its own request and id, or that there is none -/
  replied : ∀ job ∈ s.jobs, ∀ call cmdline reply, job.launch = some (call, cmdline) →
    job.pc = .done (some reply) →
    (∃ a < s.registry.nextAddr, reply = startedReply (s.registry.heap a) ∧
      (s.registry.heap a).request = some call.request ∧
      (s.registry.heap a).requestId = call.requestId) ∨
    reply.code = 409

variable {rt config env}

theorem Server.Inv.safe {s : Server} (h : s.Inv rt config env) : ServerSafe rt config env s where
  registry := h.registry
  asked := by
    intro a ha
    obtain ⟨i, job, hi, hout⟩ := h.made a ha
    have hjob := h.job hi
    obtain ⟨call, cmdline, hlaunch, -, hrequest, hid, hcmdline, -⟩ := hjob.fits _ hout
    obtain ⟨hasks, hasVenv, hcmd⟩ := hjob.asked call cmdline hlaunch
    exact ⟨i, job, call, cmdline, hasVenv, hi, hout, hasks, hcmd, hrequest, hid, hcmdline⟩
  once := h.once
  replied := by
    intro job hjob call cmdline reply hlaunch hpc
    obtain ⟨outcome, hout, hreply⟩ := (h.jobs job hjob).replied reply _ hpc hlaunch
    obtain ⟨call', cmdline', hlaunch', hfits⟩ := (h.jobs job hjob).fits outcome hout
    obtain ⟨rfl, rfl⟩ := Prod.mk.inj (Option.some.inj (hlaunch.symm.trans hlaunch'))
    cases outcome with
    | existing a =>
        obtain rfl := Option.some.inj hreply
        exact .inl ⟨a, hfits.1, rfl, hfits.2.1, hfits.2.2⟩
    | admitted a =>
        obtain rfl := Option.some.inj hreply
        exact .inl ⟨a, hfits.1, rfl, hfits.2.1, hfits.2.2.1⟩
    | raised err =>
        rcases hfits with rfl | rfl
        all_goals
          obtain rfl := Option.some.inj hreply
          exact .inr rfl

/-- **Every run was asked for**, once, from a page of an allowed origin, whatever requests come
in and however their handling is interleaved. -/
theorem server_safe (rt : Runtime) (config : ServerConfig) (env : Env) (s : Server)
    (h : (Server.system rt config env).Reachable s) : ServerSafe rt config env s :=
  (Server.inv_invariant rt config env s h).safe

end

/-- A runtime that takes the bytes of a body for ASCII. -/
def asciiRuntime : Runtime where
  nfkcSafe _ := false
  looksInside := true
  decode bytes := .ok (bytes.map fun b => Char.ofNat b.toNat)
  surrogates _ := false
  floatRepr text := text
  recursionLimit := 100
  errorText _ := []

def localConfig : ServerConfig := ⟨"127.0.0.1".toList, 8081, [], false⟩

def labEnv : Env := ⟨[], [], "/opt/srx".toList, false, "python3".toList⟩

/-- A request for a DNS query, from a page of `origin`. -/
def dnsPost (origin : String) : HttpRequest where
  target := "/api/run".toList
  headers := [("Host".toList, "127.0.0.1:8081".toList), ("Origin".toList, origin.toList),
    ("content-type".toList, "application/json; charset=utf-8".toList),
    ("Content-Length".toList, "42".toList)]
  sent := encodeUtf8 "\x7b\"workload\": \"dns\", \"target\": \"192.0.2.1\"\x7d".toList
  stalls := false

/-- The status a job was answered with. -/
def Job.status (job : Job) : Nat :=
  match job.pc with
  | .done (some reply) => reply.code
  | _ => 0

/-- A request from a foreign page, one from the dashboard's own, and another while the run is
active. -/
theorem server_safe_dns : ∃ s, (Server.system asciiRuntime localConfig labEnv).Reachable s ∧
    s.jobs.map Job.status = [403, 200, 409] ∧
    ServerSafe asciiRuntime localConfig labEnv s := by
  have hinit : Server.Initial asciiRuntime localConfig ⟨Registry.newRegistry, [], none⟩ :=
    ⟨⟨["http://127.0.0.1:8081".toList, "http://localhost:8081".toList,
      "http://[::1]:8081".toList], by decide⟩, Registry.newRegistry_initial, rfl, rfl⟩
  obtain ⟨s, hs, hstatus⟩ := TSys.exists_reachable_of_runFn
    (f := Server.step asciiRuntime localConfig labEnv)
    [.post (dnsPost "http://evil.example") false, .post (dnsPost "http://127.0.0.1:8081") false,
      .enter 1, .look, .insert "a".toList 0, .start 0, .reply 1,
      .post (dnsPost "http://127.0.0.1:8081") false, .enter 2, .look, .look, .look, .reply 2]
    (fun s => s.jobs.map Job.status = [403, 200, 409]) hinit (by decide +kernel)
  exact ⟨s, hs, of_decide_eq_true hstatus, server_safe _ _ _ s hs⟩

end SrxProbe.Dashboard
