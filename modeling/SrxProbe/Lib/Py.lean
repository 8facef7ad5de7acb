import Mathlib.Algebra.Group.Nat.Defs
import Mathlib.Data.List.DropRight
import Mathlib.Data.List.Forall2
import Mathlib.Data.Rat.Defs

/-!
# Python values

The built-in types the models share: strings as lists of code points, clock
readings as exact rationals, and the exceptions a modelled function can raise.
-/

namespace SrxProbe.Lib

/-- `str`: a sequence of code points. -/
abbrev PyStr := List Char

instance lawfulBEqPyStr : LawfulBEq PyStr := List.instLawfulBEq

/-- A reading of `time.time()`, in seconds. -/
abbrev Time := Rat

/-- The exceptions a modelled function raises, by class. The text of a `ValueError`
from the standard library is left out. -/
inductive PyErr
  | keyError
  | attributeError
  | queueFull
  | valueError (message : PyStr)
  | stdValueError
  | admissionError (message : PyStr)
  | osError
  | fileNotFoundError
  | other
  deriving DecidableEq, Repr

/-- An exception in flight: its class and its text. -/
structure Raised where
  err : PyErr
  message : PyStr
  deriving DecidableEq, Repr

/-- `s.rstrip(c)` for one character. -/
def rstripChar (c : Char) (s : PyStr) : PyStr := s.rdropWhile (· == c)

section Raising

variable {ε α β : Type}

/-- `if c: raise e`. -/
def raiseIf (c : Prop) [Decidable c] (e : ε) : Except ε Unit := if c then .error e else .ok ()

/-- The value of a call that fails with `e`. -/
def orRaise (o : Option α) (e : ε) : Except ε α :=
  match o with
  | some a => .ok a
  | none => .error e

theorem raiseIf_ok_iff {c : Prop} [Decidable c] {e : ε} : raiseIf c e = .ok () ↔ ¬ c := by
  unfold raiseIf
  split <;> simp_all

theorem raiseIf_of_not {c : Prop} [Decidable c] {e : ε} (h : ¬ c) : raiseIf c e = .ok () :=
  raiseIf_ok_iff.mpr h

theorem raiseIf_error_iff {c : Prop} [Decidable c] {e e' : ε} :
    raiseIf c e = .error e' ↔ c ∧ e' = e := by
  unfold raiseIf
  split <;> simp_all [eq_comm]

@[simp] theorem orRaise_some {a : α} {e : ε} : orRaise (some a) e = .ok a := rfl

theorem orRaise_ok_iff {o : Option α} {e : ε} {a : α} : orRaise o e = .ok a ↔ o = some a := by
  cases o <;> simp [orRaise]

theorem map_ok_iff {x : Except ε α} {f : α → β} {b : β} :
    x.map f = .ok b ↔ ∃ a, x = .ok a ∧ f a = b := by
  cases x with
  | error e => simp [Except.map]
  | ok a => simp [Except.map]

/-- A sequence of calls returns when each of them does. -/
theorem bind_ok_iff {x : Except ε α} {f : α → Except ε β} {b : β} :
    (x >>= f) = .ok b ↔ ∃ a, x = .ok a ∧ f a = .ok b := by
  cases x with
  | error e =>
      constructor
      · intro h
        cases h
      · rintro ⟨a, h, -⟩
        cases h
  | ok a =>
      constructor
      · intro h
        exact ⟨a, rfl, h⟩
      · rintro ⟨a', h, h'⟩
        cases h
        exact h'

/-- A check in front of a call. -/
theorem seq_ok_iff {x : Except ε Unit} {y : Except ε α} {v : α} :
    (x >>= fun _ => y) = .ok v ↔ x = .ok () ∧ y = .ok v := by
  cases x with
  | error e => simp [bind, Except.bind]
  | ok u => simp [bind, Except.bind]

theorem eq_ok_get {x : Except ε α} (h : x.toOption.isSome = true) :
    x = .ok (x.toOption.get h) := by
  cases x with
  | error e => cases h
  | ok a => rfl

theorem toOption_eq_some_iff {x : Except ε α} {a : α} : x.toOption = some a ↔ x = .ok a := by
  cases x <;> simp [Except.toOption]

@[simp] theorem ok_bind {a : α} {f : α → Except ε β} : ((.ok a : Except ε α) >>= f) = f a := rfl

/-- A sequence of calls raises where the first or the second does. -/
theorem bind_error_iff {x : Except ε α} {f : α → Except ε β} {e : ε} :
    (x >>= f) = .error e ↔ x = .error e ∨ ∃ a, x = .ok a ∧ f a = .error e := by
  cases x with
  | error e' =>
      constructor
      · intro h
        cases h
        exact .inl rfl
      · rintro (h | ⟨a, h, -⟩)
        · cases h
          rfl
        · cases h
  | ok a =>
      constructor
      · intro h
        exact .inr ⟨a, rfl, h⟩
      · rintro (h | ⟨a', h, h'⟩)
        · cases h
        · cases h
          exact h'

/-- A loop raises at the first turn that does. -/
theorem foldlM_error_iff {f : β → α → Except ε β} {items : List α} {b : β} {e : ε} :
    items.foldlM f b = .error e ↔ ∃ before x after s, items = before ++ x :: after ∧
      before.foldlM f b = .ok s ∧ f s x = .error e := by
  induction items generalizing b with
  | nil =>
      constructor
      · intro h
        cases h
      · rintro ⟨before, x, after, s, heq, -⟩
        exact absurd heq.symm (List.append_ne_nil_of_right_ne_nil _ (List.cons_ne_nil _ _))
  | cons y items ih =>
      rw [List.foldlM_cons, bind_error_iff]
      constructor
      · rintro (h | ⟨b', hb', h⟩)
        · exact ⟨[], y, items, b, rfl, rfl, h⟩
        · obtain ⟨before, x, after, s, rfl, hs, hx⟩ := ih.mp h
          refine ⟨y :: before, x, after, s, rfl, ?_, hx⟩
          rw [List.foldlM_cons]
          exact bind_ok_iff.mpr ⟨b', hb', hs⟩
      · rintro ⟨before, x, after, s, heq, hs, hx⟩
        cases before with
        | nil =>
            cases heq
            cases hs
            exact .inl hx
        | cons z before =>
            cases heq
            rw [List.foldlM_cons] at hs
            obtain ⟨b', hb', hs⟩ := bind_ok_iff.mp hs
            exact .inr ⟨b', hb', ih.mpr ⟨before, x, after, s, rfl, hs, hx⟩⟩

/-- A loop returns when each of its turns does. -/
theorem mapM_ok_iff {f : α → Except ε β} {l : List α} {out : List β} :
    l.mapM f = .ok out ↔ List.Forall₂ (fun a b => f a = .ok b) l out := by
  induction l generalizing out with
  | nil =>
      rw [List.forall₂_nil_left_iff]
      constructor
      · intro h
        cases h
        rfl
      · rintro rfl
        rfl
  | cons a l ih =>
      rw [List.mapM_cons, bind_ok_iff, List.forall₂_cons_left_iff]
      constructor
      · rintro ⟨b, hb, h⟩
        obtain ⟨rest, hrest, h⟩ := bind_ok_iff.mp h
        cases h
        exact ⟨b, rest, hb, ih.mp hrest, rfl⟩
      · rintro ⟨b, rest, hb, hrest, rfl⟩
        exact ⟨b, hb, bind_ok_iff.mpr ⟨rest, ih.mpr hrest, rfl⟩⟩

theorem forM_ok_iff {f : α → Except ε Unit} {l : List α} :
    l.forM f = .ok () ↔ ∀ x ∈ l, f x = .ok () := by
  induction l with
  | nil => simp [List.forM, pure, Except.pure]
  | cons x l ih =>
      show (f x >>= fun _ => l.forM f) = .ok () ↔ _
      rw [bind_ok_iff]
      simp only [List.mem_cons, forall_eq_or_imp, ih]
      constructor
      · rintro ⟨u, hx, hl⟩
        exact ⟨hx, hl⟩
      · rintro ⟨hx, hl⟩
        exact ⟨(), hx, hl⟩

/-! ### The exceptions a call can raise -/

/-- Whatever the call raises satisfies `P`. -/
def OnlyRaises (P : ε → Prop) (x : Except ε α) : Prop := ∀ e, x = .error e → P e

namespace OnlyRaises

variable {P : ε → Prop}

theorem ok (a : α) : OnlyRaises P (.ok a : Except ε α) := by
  intro e h
  cases h

theorem error {e : ε} (h : P e) : OnlyRaises P (.error e : Except ε α) := by
  intro e' h'
  cases h'
  exact h

theorem raiseIf {c : Prop} [Decidable c] {e : ε} (h : P e) :
    OnlyRaises P (Lib.raiseIf c e) := by
  intro e' h'
  exact (raiseIf_error_iff.mp h').2 ▸ h

theorem orRaise {o : Option α} {e : ε} (h : P e) : OnlyRaises P (Lib.orRaise o e) := by
  cases o with
  | none => exact error h
  | some a => exact ok a

theorem bind {x : Except ε α} {f : α → Except ε β} (hx : OnlyRaises P x)
    (hf : ∀ a, x = .ok a → OnlyRaises P (f a)) : OnlyRaises P (x >>= f) := by
  intro e h
  rcases bind_error_iff.mp h with h | ⟨a, ha, h⟩
  · exact hx e h
  · exact hf a ha e h

theorem map {x : Except ε α} (h : OnlyRaises P x) (f : α → β) : OnlyRaises P (x.map f) := by
  cases x with
  | error e => exact error (h e rfl)
  | ok a => exact ok _

/-- A loop, whose turns raise nothing else. -/
theorem mapM {f : α → Except ε β} {l : List α} (h : ∀ a ∈ l, OnlyRaises P (f a)) :
    OnlyRaises P (l.mapM f) := by
  induction l with
  | nil => exact ok []
  | cons a l ih =>
      rw [List.mapM_cons]
      refine bind (h a List.mem_cons_self) fun b _ => ?_
      exact bind (ih fun a ha => h a (List.mem_cons_of_mem _ ha)) fun bs _ => ok _

end OnlyRaises

end Raising

/-- `list.remove` / `set.remove`: raises `KeyError` when the item is absent. -/
def pyRemove {α : Type} [DecidableEq α] (items : List α) (x : α) : Except PyErr (List α) :=
  if x ∈ items then .ok (items.erase x) else .error .keyError

/-- A map with one entry replaced: `m[k] = v` on a total map. -/
def update {κ β : Type} [DecidableEq κ] (m : κ → β) (k : κ) (v : β) : κ → β :=
  fun j => if j = k then v else m j

section update

variable {κ β : Type} [DecidableEq κ]

@[simp] theorem update_self (m : κ → β) (k : κ) (v : β) : update m k v k = v := by
  simp [update]

theorem update_update (m : κ → β) (k : κ) (v w : β) :
    update (update m k v) k w = update m k w := by
  funext j
  by_cases h : j = k <;> simp [update, h]

theorem update_of_ne (m : κ → β) {j k : κ} (v : β) (h : j ≠ k) : update m k v j = m j := by
  simp [update, h]

end update

end SrxProbe.Lib
