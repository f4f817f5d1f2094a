import Mathlib.Data.Nat.Notation
import Mathlib.Tactic.Common

/-!
Validation as a sequence of checks, each with the error it ends in.
-/

namespace SpendGuard.Base

variable {ε ε' α β : Type}

def check (p : Prop) [Decidable p] (e : ε) : Except ε Unit := if p then .ok () else .error e

def found (o : Option α) (e : ε) : Except ε α :=
  match o with
  | some a => .ok a
  | none => .error e

def checked (p : Prop) [Decidable p] (e : ε) : Except ε (PLift p) := if h : p then .ok ⟨h⟩ else .error e

def foundWith (o : Option α) (e : ε) : Except ε {a // o = some a} :=
  match o with
  | some a => .ok ⟨a, rfl⟩
  | none => .error e

@[simp] theorem found_some (a : α) (e : ε) : found (some a) e = .ok a := rfl

@[simp] theorem ok_bind (a : α) (f : α → Except ε β) : Except.ok a >>= f = f a := rfl

@[simp] theorem error_bind (e : ε) (f : α → Except ε β) : Except.error e >>= f = .error e := rfl

variable {x : Except ε α} {f : α → Except ε β} {b : β} {p : Prop} {e : ε} {a : α}

theorem bind_eq_ok :
    x >>= f = .ok b ↔ ∃ a, x = .ok a ∧ f a = .ok b := by
  cases x with
  | ok a => simp
  | error e => exact ⟨fun h => (by cases h), fun ⟨_, h, _⟩ => (by cases h)⟩

theorem check_of [Decidable p] (h : p) (e : ε) : check p e = .ok () := if_pos h

theorem check_of_not [Decidable p] (h : ¬p) (e : ε) : check p e = .error e := if_neg h

theorem check_eq_ok [Decidable p] {u : Unit} : check p e = .ok u ↔ p := by
  by_cases h : p <;> simp [check, h]

@[simp] theorem check_bind_eq_ok [Decidable p] {f : Unit → Except ε β} :
    check p e >>= f = .ok b ↔ p ∧ f () = .ok b := by
  unfold check
  split
  · exact (and_iff_right ‹p›).symm
  · exact ⟨fun h => (by cases h), fun h => absurd h.1 ‹¬p›⟩

@[simp] theorem found_bind_eq_ok {o : Option α} :
    found o e >>= f = .ok b ↔ ∃ a, o = some a ∧ f a = .ok b := by
  cases o with
  | none => exact ⟨fun h => (by cases h), fun ⟨_, h, _⟩ => (by cases h)⟩
  | some a => exact ⟨fun h => ⟨a, rfl, h⟩, fun ⟨_, h, h'⟩ => by cases h; exact h'⟩

@[simp] theorem found_eq_ok {o : Option α} : found o e = .ok a ↔ o = some a := by
  cases o <;> simp [found]

@[simp] theorem mapError_ok (f : ε → ε') (a : α) : (Except.ok a).mapError f = .ok a := rfl

theorem mapError_eq_ok {f : ε → ε'} : x.mapError f = .ok a ↔ x = .ok a := by
  cases x <;> simp [Except.mapError]

theorem isOk_iff_exists : x.isOk = true ↔ ∃ a, x = .ok a := by
  cases x <;> simp [Except.isOk, Except.toBool]

theorem toOption_eq_some : x.toOption = some a ↔ x = .ok a := by
  cases x <;> simp [Except.toOption]

theorem getElem?_of_mapM {xs : List α} {ys : List β} (h : xs.mapM f = .ok ys) {i : ℕ} {x : α}
    (hx : xs[i]? = some x) : ∃ y, ys[i]? = some y ∧ f x = .ok y := by
  induction xs generalizing ys i with
  | nil => cases hx
  | cons a xs ih =>
    rw [List.mapM_cons] at h
    obtain ⟨b, hb, h⟩ := bind_eq_ok.mp h
    obtain ⟨bs, hbs, h⟩ := bind_eq_ok.mp h
    cases h
    cases i with
    | zero =>
      cases hx
      exact ⟨b, rfl, hb⟩
    | succ i => exact ih hbs hx

end SpendGuard.Base
