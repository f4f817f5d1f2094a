import Mathlib.Tactic.Common

/-!
Comparisons with missing values, where a condition can be unknown.
-/

namespace SpendGuard.Base

variable {α : Type} [DecidableEq α]

/-- The value of a condition; `none` if it is unknown. -/
abbrev Truth := Option Bool

def differ (x y : Option α) : Truth :=
  match x, y with
  | some a, some b => some (a ≠ b)
  | _, _ => none

def Truth.or : Truth → Truth → Truth
  | some true, _ => some true
  | _, some true => some true
  | some false, some false => some false
  | _, _ => none

def Truth.holds (t : Truth) : Bool := t = some true

@[simp] theorem holds_differ {x y : Option α} :
    (differ x y).holds = true ↔ ∃ a b, x = some a ∧ y = some b ∧ a ≠ b := by
  cases x <;> cases y <;> simp [differ, Truth.holds]

@[simp] theorem Truth.holds_or {s t : Truth} : (s.or t).holds = true ↔ s.holds = true ∨ t.holds = true := by
  rcases s with _ | _ | _ <;> rcases t with _ | _ | _ <;> simp [Truth.or, Truth.holds]

end SpendGuard.Base
