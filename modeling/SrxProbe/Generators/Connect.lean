import Mathlib.Algebra.Order.Ring.Rat
import SrxProbe.Lib.Py

/-!
# Connecting under a deadline

The crawler's own connection set-up: a name is resolved, and the addresses are tried
in order until one accepts. A clock reading stands for each look at the deadline, and the
calls on sockets are logged.
-/

namespace SrxProbe.Generators

open SrxProbe.Lib

/-- An `OSError`, by the name of its class and its text. -/
structure OSError where
  name : PyStr
  message : PyStr
  deriving DecidableEq, Repr

/-- `TimeoutError(message)`. -/
def timeoutError (message : PyStr) : OSError := ⟨"TimeoutError".toList, message⟩

/-- `_Deadline`. -/
structure Deadline where
  stop : Time
  deriving DecidableEq, Repr

/-- `deadline.remaining()`, when the clock reads `now`. -/
def Deadline.remaining (d : Deadline) (now : Time) : Except OSError Time :=
  if d.stop - now ≤ 0 then .error (timeoutError "crawl deadline exceeded".toList)
  else .ok (d.stop - now)

/-! ## Attempts -/

/-- What happens at one of the resolved addresses: how `socket.socket` fails, if it
does, how `sock.connect` does, and the clock before and after the latter. -/
structure Attempt where
  create : Option OSError
  before : Time
  connect : Option OSError
  after : Time
  deriving DecidableEq, Repr

/-- The block that is tried on a socket. -/
def Attempt.use (a : Attempt) (d : Deadline) : Except OSError Unit := do
  let _ ← d.remaining a.before
  match a.connect with
  | some error => .error error
  | none =>
      let _ ← d.remaining a.after
      .ok ()

/-- A call on the socket for the `i`th address. -/
inductive SocketCall
  | createFails (i : Nat)
  | create (i : Nat)
  | close (i : Nat)
  deriving DecidableEq, Repr

/-- The socket returned or the error raised, and the calls made on the way. -/
structure Connected where
  outcome : Except OSError Nat
  calls : List SocketCall

/-- The loop of `_connect` from the `i`th address on; `error` is the last one. -/
def connectFrom (d : Deadline) : Nat → OSError → List Attempt → Connected
  | _, error, [] => ⟨.error error, []⟩
  | i, _, a :: rest =>
      match a.create with
      -- `socket.socket` stands outside of the `try`
      | some error => ⟨.error error, [.createFails i]⟩
      | none =>
          match a.use d with
          | .ok () => ⟨.ok i, [.create i]⟩
          | .error error =>
              let others := connectFrom d (i + 1) error rest
              ⟨others.outcome, .create i :: .close i :: others.calls⟩

/-- What the resolver puts into the queue within the remaining time, if anything. -/
inductive Resolved
  | addresses (attempts : List Attempt)
  | error (error : OSError)
  | nothing
  deriving DecidableEq, Repr

def noAddresses : OSError := ⟨"OSError".toList, "no addresses for target".toList⟩

/-- `_connect`, when the clock reads `now` before the queue is read. -/
def connect (d : Deadline) (now : Time) (resolved : Resolved) : Connected :=
  match d.remaining now with
  | .error error => ⟨.error error, []⟩
  | .ok _ =>
      match resolved with
      | .nothing => ⟨.error (timeoutError "DNS deadline exceeded".toList), []⟩
      | .error error => ⟨.error error, []⟩
      | .addresses attempts => connectFrom d 0 noAddresses attempts

/-! ## What is expected of it -/

/-- The socket is made and connects. -/
def Attempt.succeeds (a : Attempt) : Bool := a.create.isNone && a.connect.isNone

/-- The error of the last address, or `error` if there is none. -/
def lastError (error : OSError) : List Attempt → OSError
  | [] => error
  | a :: rest => lastError ((a.create.or a.connect).getD error) rest

/-- The deadline has not expired at any look at it. -/
structure InTime (d : Deadline) (attempts : List Attempt) : Prop where
  before : ∀ a ∈ attempts, a.before < d.stop
  after : ∀ a ∈ attempts, a.after < d.stop

/-- The socket of the first address that accepts is returned; if there is none, every
address was tried, and the last error is raised. -/
structure TriesAll (i : Nat) (error : OSError) (attempts : List Attempt) (r : Connected) :
    Prop where
  first : ∀ k, attempts.findIdx? Attempt.succeeds = some k → r.outcome = .ok (i + k)
  none : attempts.findIdx? Attempt.succeeds = none →
    r.outcome = .error (lastError error attempts) ∧
      ∀ k < attempts.length, .create (i + k) ∈ r.calls ∨ .createFails (i + k) ∈ r.calls

/-- Every socket made is closed, but for the one returned. -/
def ClosesOthers (r : Connected) : Prop :=
  ∀ i, .create i ∈ r.calls → r.outcome = .ok i ∨ .close i ∈ r.calls

/-- A socket cannot be made for an address that is not the last, and none before it
accepts. -/
def GivesUp (attempts : List Attempt) : Prop :=
  ∃ before a after, attempts = before ++ a :: after ∧ a.create ≠ none ∧ after ≠ [] ∧
    ∀ b ∈ before, b.succeeds = false

/-! ## Proofs -/

section

variable {d : Deadline} {a : Attempt} {attempts rest : List Attempt} {error error' : OSError}
  {i : Nat}

theorem remaining_ok {now : Time} (h : now < d.stop) : d.remaining now = .ok (d.stop - now) := by
  unfold Deadline.remaining
  rw [if_neg]
  rw [sub_nonpos, not_le]
  exact h

theorem remaining_error {now : Time} (h : ¬ now < d.stop) :
    d.remaining now = .error (timeoutError "crawl deadline exceeded".toList) := by
  unfold Deadline.remaining
  rw [if_pos]
  rw [sub_nonpos]
  exact not_lt.mp h

/-- In time, using a socket fails as connecting does. -/
theorem use_eq (hbefore : a.before < d.stop) (hafter : a.after < d.stop) :
    a.use d = match a.connect with
      | some error => .error error
      | none => .ok () := by
  unfold Attempt.use
  rw [remaining_ok hbefore, remaining_ok hafter]
  rfl

theorem InTime.tail (h : InTime d (a :: rest)) : InTime d rest where
  before := fun b hb => h.before b (List.mem_cons_of_mem a hb)
  after := fun b hb => h.after b (List.mem_cons_of_mem a hb)

theorem givesUp_cons : GivesUp (a :: rest) ↔
    a.succeeds = false ∧ (a.create ≠ none ∧ rest ≠ [] ∨ GivesUp rest) := by
  constructor
  · rintro ⟨before, b, after, heq, hcreate, hafter, hbefore⟩
    cases before with
    | nil =>
        cases heq
        refine ⟨?_, .inl ⟨hcreate, hafter⟩⟩
        cases hc : a.create with
        | none => exact absurd hc hcreate
        | some e => simp [Attempt.succeeds, hc]
    | cons c before =>
        cases heq
        exact ⟨hbefore a List.mem_cons_self, .inr ⟨before, b, after, rfl, hcreate, hafter,
          fun b' hb' => hbefore b' (List.mem_cons_of_mem a hb')⟩⟩
  · rintro ⟨hfails, ⟨hcreate, hrest⟩ | ⟨before, b, after, rfl, hcreate, hafter, hbefore⟩⟩
    · exact ⟨[], a, rest, rfl, hcreate, hrest, nofun⟩
    · refine ⟨a :: before, b, after, rfl, hcreate, hafter, ?_⟩
      intro b' hb'
      rcases List.mem_cons.mp hb' with rfl | hb'
      · exact hfails
      · exact hbefore b' hb'

theorem not_givesUp_nil : ¬ GivesUp [] := by
  rintro ⟨before, b, after, heq, -⟩
  exact absurd heq.symm (List.append_ne_nil_of_right_ne_nil _ (List.cons_ne_nil _ _))

/-- A list whose first address was tried in vain is judged by the others. -/
theorem triesAll_skip {r : Connected} (hfails : a.succeeds = false)
    (herror : (a.create.or a.connect).getD error = error') :
    TriesAll i error (a :: rest) ⟨r.outcome, .create i :: .close i :: r.calls⟩ ↔
      TriesAll (i + 1) error' rest r := by
  have hfind : (a :: rest).findIdx? Attempt.succeeds =
      (rest.findIdx? Attempt.succeeds).map (· + 1) := by
    rw [List.findIdx?_cons, hfails]
    rfl
  -- an address of the rest has its index one higher in the whole list
  constructor
  · intro h
    refine ⟨?_, ?_⟩
    · intro k hk
      have hfirst := h.first (k + 1) (by rw [hfind, hk]; rfl)
      rwa [← Nat.add_assoc, Nat.add_right_comm] at hfirst
    · intro hnone
      obtain ⟨hraise, htried⟩ := h.none (by rw [hfind, hnone]; rfl)
      rw [lastError, herror] at hraise
      refine ⟨hraise, ?_⟩
      intro k hk
      have hcall := htried (k + 1) (Nat.succ_lt_succ hk)
      rw [show i + (k + 1) = i + 1 + k by omega] at hcall
      -- the calls of the first socket are about no other index
      have hne : i + 1 + k ≠ i := by omega
      simpa [hne] using hcall
  · intro h
    refine ⟨?_, ?_⟩
    · intro k hk
      rw [hfind] at hk
      obtain ⟨k', hk', rfl⟩ := Option.map_eq_some_iff.mp hk
      have hfirst := h.first k' hk'
      rwa [show i + 1 + k' = i + (k' + 1) by omega] at hfirst
    · intro hnone
      rw [hfind] at hnone
      obtain ⟨hraise, htried⟩ := h.none (Option.map_eq_none_iff.mp hnone)
      rw [lastError, herror]
      refine ⟨hraise, ?_⟩
      intro k hk
      cases k with
      | zero => exact .inl List.mem_cons_self
      | succ k =>
          have hcall := htried k (Nat.lt_of_succ_lt_succ hk)
          rw [show i + 1 + k = i + (k + 1) by omega] at hcall
          exact hcall.imp (fun h => List.mem_cons_of_mem _ (List.mem_cons_of_mem _ h))
            (fun h => List.mem_cons_of_mem _ (List.mem_cons_of_mem _ h))

/-- In time, every address is tried unless the loop gives up. -/
theorem triesAll_connectFrom (htime : InTime d attempts) :
    TriesAll i error attempts (connectFrom d i error attempts) ↔ ¬ GivesUp attempts := by
  induction attempts generalizing i error with
  | nil => exact ⟨fun _ => not_givesUp_nil, fun _ => ⟨nofun, fun _ => ⟨rfl, nofun⟩⟩⟩
  | cons a rest ih =>
      have huse := use_eq (htime.before a List.mem_cons_self) (htime.after a List.mem_cons_self)
      rw [connectFrom, givesUp_cons]
      cases hcreate : a.create with
      | some e =>
          have hfails : a.succeeds = false := by simp [Attempt.succeeds, hcreate]
          simp only [hfails, true_and, ne_eq, reduceCtorEq, not_false_eq_true]
          -- no socket could be created: the source raises at once, whatever addresses are left
          cases rest with
          | nil =>
              refine ⟨fun _ h => h.elim (fun h => h rfl) not_givesUp_nil, fun _ => ⟨?_, ?_⟩⟩
              · intro k hk
                rw [List.findIdx?_cons, hfails] at hk
                cases hk
              · intro _
                refine ⟨by simp [lastError, hcreate], ?_⟩
                intro k hk
                obtain rfl : k = 0 := by simpa using hk
                exact .inr List.mem_cons_self
          | cons b rest =>
              refine ⟨fun h => ?_, fun h => absurd (.inl (List.cons_ne_nil b rest)) h⟩
              -- the second address was never tried
              cases hfind : (a :: b :: rest).findIdx? Attempt.succeeds with
              | some k => exact nomatch h.first k hfind
              | none =>
                  have hcall := (h.none hfind).2 1 (by simp)
                  simp at hcall
      | none =>
          cases hconnect : a.connect with
          | none =>
              have hok : a.use d = .ok () := by rw [huse, hconnect]
              have hsucceeds : a.succeeds = true := by simp [Attempt.succeeds, hcreate, hconnect]
              have hfind : (a :: rest).findIdx? Attempt.succeeds = some 0 := by
                rw [List.findIdx?_cons, hsucceeds]
                rfl
              rw [hok, hsucceeds]
              refine ⟨fun _ h => absurd h.1 (by decide), fun _ => ⟨?_, ?_⟩⟩
              · intro k hk
                rw [hfind] at hk
                cases hk
                rfl
              · intro hnone
                rw [hfind] at hnone
                cases hnone
          | some e =>
              have herr : a.use d = .error e := by rw [huse, hconnect]
              have hfails : a.succeeds = false := by simp [Attempt.succeeds, hcreate, hconnect]
              rw [herr, hfails]
              show TriesAll i error (a :: rest) ⟨_, .create i :: .close i :: _⟩ ↔ _
              have herror : (a.create.or a.connect).getD error = e := by simp [hcreate, hconnect]
              rw [triesAll_skip hfails herror, ih htime.tail]
              simp

/-- Whatever happens, only the socket that is returned stays open. -/
theorem closesOthers_connectFrom : ClosesOthers (connectFrom d i error attempts) := by
  induction attempts generalizing i error with
  | nil => exact fun _ h => by cases h
  | cons a rest ih =>
      intro j hj
      rw [connectFrom] at hj ⊢
      cases hcreate : a.create with
      | some e =>
          rw [hcreate] at hj
          simp at hj
      | none =>
          cases huse : a.use d with
          | ok u =>
              rw [hcreate, huse] at hj
              cases List.mem_singleton.mp hj
              exact .inl rfl
          | error e =>
              rw [hcreate, huse] at hj
              simp only [List.mem_cons, reduceCtorEq, false_or, SocketCall.create.injEq] at hj
              -- this socket was closed before the loop went on; the others by induction
              rcases hj with rfl | hj
              · exact .inr (List.mem_cons_of_mem _ List.mem_cons_self)
              · exact (ih j hj).imp id
                  fun h => List.mem_cons_of_mem _ (List.mem_cons_of_mem _ h)

end

/-- The calls of `_connect` under a deadline that expires or not, on whatever the
resolver answers. -/
theorem closesOthers_connect (d : Deadline) (now : Time) (resolved : Resolved) :
    ClosesOthers (connect d now resolved) := by
  unfold connect
  split
  · exact fun _ h => by cases h
  · cases resolved with
    | addresses attempts => exact closesOthers_connectFrom
    | error error => exact fun _ h => by cases h
    | nothing => exact fun _ h => by cases h

/-- **Connecting tries every address** under a deadline that does not expire, if and
only if no address that is not the last, before the first that accepts, fails where the
socket is made. Under any deadline every socket but the one returned is closed. -/
theorem connect_tries_all_iff (d : Deadline) (now : Time) (attempts : List Attempt) :
    ClosesOthers (connect d now (.addresses attempts)) ∧
    (now < d.stop → InTime d attempts →
      (TriesAll 0 noAddresses attempts (connect d now (.addresses attempts)) ↔
        ¬ GivesUp attempts)) := by
  refine ⟨closesOthers_connect d now _, ?_⟩
  intro hnow htime
  have hconnect : connect d now (.addresses attempts) = connectFrom d 0 noAddresses attempts := by
    unfold connect
    rw [remaining_ok hnow]
  rw [hconnect]
  exact triesAll_connectFrom htime

/-- No socket can be made for the first address, and the second one accepts. -/
def unsupportedFirst : List Attempt :=
  [⟨some ⟨"OSError".toList, "Address family not supported by protocol".toList⟩, 0, none, 0⟩,
    ⟨none, 0, none, 0⟩]

/-- The first address has no socket, and the second one is never tried. -/
theorem connect_gives_up : InTime ⟨10⟩ unsupportedFirst ∧
    ¬ TriesAll 0 noAddresses unsupportedFirst (connect ⟨10⟩ 0 (.addresses unsupportedFirst)) := by
  have hpos : (0 : Time) < (⟨10⟩ : Deadline).stop := by
    show (0 : Rat) < 10
    decide
  refine ⟨⟨?_, ?_⟩, ?_⟩
  · simp [unsupportedFirst, hpos]
  · simp [unsupportedFirst, hpos]
  · intro h
    have hfirst := h.first 1 rfl
    unfold connect at hfirst
    rw [remaining_ok hpos] at hfirst
    cases hfirst

end SrxProbe.Generators
