import Mathlib.Algebra.BigOperators.Group.List.Basic
import Mathlib.Data.List.Nodup
import Mathlib.Tactic.Abel

/-!
Sums over the rows of a table when one row of it changes.
-/

namespace SpendGuard.Base

variable {α κ M : Type}

theorem sum_map_change [AddCommGroup M] {p : α → Bool} {xs : List α} {a : α}
    (g g' : α → M) (h : xs.filter p = [a]) (hsame : ∀ x ∈ xs, p x = false → g' x = g x) :
    (xs.map g').sum = (xs.map g).sum + (g' a - g a) := by
  induction xs with
  | nil => cases h
  | cons x xs ih =>
    have htail : ∀ y ∈ xs, p y = false → g' y = g y := fun y hy => hsame y (List.mem_cons_of_mem x hy)
    simp only [List.map_cons, List.sum_cons]
    by_cases hx : p x = true
    · rw [List.filter_cons_of_pos hx, List.cons.injEq] at h
      obtain ⟨rfl, hrest⟩ := h
      have hequal : xs.map g' = xs.map g := by
        apply List.map_congr_left
        intro y hy
        exact htail y hy (by simpa using List.filter_eq_nil_iff.mp hrest y hy)
      rw [hequal]
      abel
    · rw [List.filter_cons_of_neg hx] at h
      rw [ih h htail, hsame x List.mem_cons_self (by simpa using hx)]
      abel

theorem filter_eq_singleton_of_nodup [DecidableEq κ] {key : α → κ} {xs : List α} {a : α}
    (h : (xs.map key).Nodup) (ha : a ∈ xs) : xs.filter (fun x => key x = key a) = [a] := by
  induction xs with
  | nil => cases ha
  | cons x xs ih =>
    rw [List.map_cons, List.nodup_cons] at h
    cases ha with
    | head =>
      rw [List.filter_cons_of_pos (by simp), List.cons.injEq]
      refine ⟨rfl, List.filter_eq_nil_iff.mpr ?_⟩
      intro y hy hkey
      exact h.1 (of_decide_eq_true hkey ▸ List.mem_map_of_mem hy)
    | tail _ ha =>
      rw [List.filter_cons_of_neg]
      · exact ih h.2 ha
      · intro hkey
        exact h.1 (of_decide_eq_true hkey ▸ List.mem_map_of_mem ha)

end SpendGuard.Base
